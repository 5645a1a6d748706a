import PropertyGraph.Proofs.Text.Blank
import PropertyGraph.Proofs.Text.Digit
import PropertyGraph.Text.Word

/-!
The characters of words and of the names of fields. None of them is a blank. Those of ASCII are
letters, digits and underscores, so that no mark and no bracket is among them, and their digits are
the ten of ASCII.
-/

namespace PropertyGraph

namespace Text

/-- The code points of the blanks. -/
def blankPoints : List Nat :=
  blankRanges.flatMap fun range => List.range' range.1 (range.2 + 1 - range.1)

/-- A character is no blank if it has what none of the blanks has. -/
theorem isBlank_of_points {p : Char → Bool} (hpoints : ∀ n ∈ blankPoints, p (Char.ofNat n) = false)
    {c : Char} (hc : p c = true) : isBlank c = false := by
  refine Bool.of_not_eq_true fun hblank => ?_
  obtain ⟨range, hrange, hle⟩ := within_iff.1 hblank
  have hpoint : c.toNat ∈ blankPoints :=
    List.mem_flatMap.2 ⟨range, hrange, List.mem_range'_1.2 ⟨hle.1, by omega⟩⟩
  have hfalse := hpoints _ hpoint
  rw [Char.ofNat_toNat, hc] at hfalse
  cases hfalse

theorem isBlank_of_isWordChar {c : Char} (hc : isWordChar c = true) : isBlank c = false :=
  isBlank_of_points (by decide +kernel) hc

theorem isBlank_of_isDigit {c : Char} (hc : isDigit c = true) : isBlank c = false :=
  isBlank_of_points (by decide +kernel) hc

section

variable {text : List Char}

theorem isFieldName_iff :
    isFieldName text = true ↔ text ≠ [] ∧ ∀ c ∈ text, (isWordChar c || c == '.') = true := by
  rw [isFieldName, Bool.and_eq_true, Bool.not_eq_true', List.isEmpty_eq_false_iff,
    List.all_eq_true]

variable (h : isFieldName text = true)

include h

/-- A mark that the name of a field does not hold. -/
theorem notMem_of_isFieldName {mark : Char} (hmark : (isWordChar mark || mark == '.') = false) :
    mark ∉ text :=
  fun hmem => Bool.false_ne_true (hmark.symm.trans ((isFieldName_iff.1 h).2 mark hmem))

theorem isBlank_of_mem_fieldName {c : Char} (hc : c ∈ text) : isBlank c = false := by
  have hchar := (isFieldName_iff.1 h).2 c hc
  rw [Bool.or_eq_true, beq_iff_eq] at hchar
  rcases hchar with hchar | rfl
  · exact isBlank_of_isWordChar hchar
  · decide

theorem strip_of_isFieldName : strip text = text :=
  strip_of_unblank fun _ => isBlank_of_mem_fieldName h

end

/-- A mark that is neither in the name of a field nor among the blanks around it. -/
theorem notMem_of_isFieldName_strip {name : List Char} (h : isFieldName (strip name) = true)
    {mark : Char} (hblank : isBlank mark = false)
    (hmark : (isWordChar mark || mark == '.') = false) : mark ∉ name :=
  fun hmem => notMem_of_isFieldName h hmark (mem_strip hmem hblank)

/-- A letter, a digit or an underscore of ASCII. -/
def isAsciiWordChar (c : Char) : Bool := c.isAlphanum || c == '_'

theorem isAsciiWordChar_cases {c : Char} (h : isAsciiWordChar c = true) :
    ((c.isUpper = true ∨ c.isLower = true) ∨ c.isDigit = true) ∨ c = '_' := by
  have hword : (((c.isUpper || c.isLower) || c.isDigit) || c == '_') = true := h
  simpa only [Bool.or_eq_true, beq_iff_eq] using hword

theorem toNat_lt_of_isAsciiWordChar {c : Char} (h : isAsciiWordChar c = true) : c.toNat < 128 := by
  have hlt : ∀ {last : UInt32}, c.val ≤ last → last.toNat < 128 → c.toNat < 128 :=
    fun hle hlast => Nat.lt_of_le_of_lt (UInt32.le_iff_toNat_le.1 hle) hlast
  rcases isAsciiWordChar_cases h with ((hupper | hlower) | hdigit) | rfl
  · exact hlt (of_decide_eq_true hupper).2 (by decide)
  · exact hlt (of_decide_eq_true (Bool.and_eq_true_iff.1 hlower).2) (by decide)
  · exact hlt (of_decide_eq_true (Bool.and_eq_true_iff.1 hdigit).2) (by decide)
  · decide

theorem isWordChar_of_isAsciiWordChar {c : Char} (hc : isAsciiWordChar c = true) :
    isWordChar c = true := by
  rw [isWordChar, if_pos (toNat_lt_of_isAsciiWordChar hc)]
  exact hc

theorem mem_asciiDigits_of_isDigit {c : Char} (hc : isAsciiWordChar c = true)
    (hdigit : isDigit c = true) : c ∈ asciiDigits := by
  have hall : ∀ n : Fin 128, isDigit (Char.ofNat n) = true → Char.ofNat n ∈ asciiDigits := by decide
  have hmem := hall ⟨c.toNat, toNat_lt_of_isAsciiWordChar hc⟩
  rw [Char.ofNat_toNat] at hmem
  exact hmem hdigit

/-- A character that a word does not have. -/
theorem notMem_of_isAsciiWordChar {text : List Char} (h : ∀ c ∈ text, isAsciiWordChar c = true)
    {mark : Char} (hmark : isAsciiWordChar mark = false) : mark ∉ text :=
  fun hmem => Bool.false_ne_true (hmark.symm.trans (h mark hmem))

end Text

end PropertyGraph
