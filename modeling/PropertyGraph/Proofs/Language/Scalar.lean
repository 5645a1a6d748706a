import PropertyGraph.Language.Literal
import PropertyGraph.Proofs.Except
import PropertyGraph.Proofs.Text.Blank
import PropertyGraph.Proofs.Text.Digit

/-!
What a literal is read from, and what it can be read as. A literal is read without the blanks around
it and the comma at its end. If it is no list, it is a truth value, a number, a date, a time, or the
text itself without quotes.
-/

namespace PropertyGraph

open Text

namespace Numeral

/-- What is read is written with no more digits. -/
theorem withinDigits_of_natural {digits : List Char} {n : Nat} (h : natural digits = .ok n) :
    withinDigits n = true := by
  unfold natural at h
  split at h
  case isTrue => cases h
  case isFalse hlength =>
    obtain rfl := Except.ok.inj h
    have hbound : 10 ^ digits.length ≤ 10 ^ digitLimit :=
      Nat.pow_le_pow_right (by decide) (Nat.le_of_not_lt hlength)
    exact decide_eq_true
      (length_natDigits_le (by decide) (Nat.lt_of_lt_of_le (digitsValue_lt digits) hbound))

theorem withinDigits_of_signedInteger {negative : Bool} {digits : List Char} {n : Int}
    (h : signedInteger negative digits = .ok n) : withinDigits n = true := by
  obtain ⟨m, hm, h⟩ := exists_of_bind h
  have hwithin := withinDigits_of_natural hm
  obtain rfl := Except.ok.inj h
  cases negative with
  | false => exact hwithin
  | true =>
      show withinDigits (-(m : Int)) = true
      rwa [withinDigits, Int.natAbs_neg]

end Numeral

namespace Literal

variable {text : List Char}

theorem dropTrailingComma_isPrefix (text : List Char) : dropTrailingComma text <+: text := by
  unfold dropTrailingComma
  split
  · exact List.dropLast_prefix text
  · exact List.prefix_rfl

theorem dropFinalNewline_isPrefix (text : List Char) : dropFinalNewline text <+: text := by
  unfold dropFinalNewline
  split
  · exact List.dropLast_prefix text
  · exact List.prefix_rfl

theorem core_isInfix (text : List Char) : core text <:+: text :=
  (dropTrailingComma_isPrefix _).isInfix.trans (strip_isInfix text)

theorem core_of_getLast? (h : (strip text).getLast? ≠ some ',') : core text = strip text := by
  rw [core, dropTrailingComma, if_neg h]

/-- What is read depends on what is left without blanks around and a comma at the end. -/
theorem read_congr {text other : List Char} (h : core text = core other) :
    read text = read other := by
  cases hbracketed : bracketed? (core text) with
  | some inner =>
      have hother : bracketed? (core other) = some inner := h ▸ hbracketed
      rw [read_of_bracketed? hbracketed, read_of_bracketed? hother]
  | none =>
      have hother : bracketed? (core other) = none := h ▸ hbracketed
      rw [read_of_not_bracketed? hbracketed, read_of_not_bracketed? hother, h]

/-- Blanks around a literal are passed over. -/
theorem read_congr_of_strip {text other : List Char} (h : strip text = strip other) :
    read text = read other :=
  read_congr (congrArg dropTrailingComma h)

/-- A space before a literal is passed over. -/
theorem read_cons_space (text : List Char) : read (' ' :: text) = read text :=
  read_congr_of_strip (strip_cons_blank isBlank_space text)

/-- Between marks that are neither blanks nor commas nothing is taken off a text. -/
theorem core_enclosed {first last : Char} (hfirst : isBlank first = false)
    (hlast : isBlank last = false) (hcomma : last ≠ ',') (inner : List Char) :
    core (first :: (inner ++ [last])) = first :: (inner ++ [last]) := by
  have hstrip := strip_enclosed hfirst hlast inner
  have hend : (strip (first :: (inner ++ [last]))).getLast? ≠ some ',' := by
    rw [hstrip, ← List.cons_append, List.getLast?_concat]
    exact fun h => hcomma (Option.some.inj h)
  exact (core_of_getLast? hend).trans hstrip

theorem dropFinalNewline_append_newline (text : List Char) :
    dropFinalNewline (text ++ ['\n']) = text := by
  rw [dropFinalNewline, List.getLast?_concat, if_pos rfl, List.dropLast_concat]

theorem dropFinalNewline_of_unblank (hlast : ∀ c ∈ text.getLast?, isBlank c = false) :
    dropFinalNewline text = text := by
  rw [dropFinalNewline, if_neg]
  intro hnewline
  exact absurd (hlast '\n' hnewline) (by decide)

/-- A bracketed text is what stands between the brackets, and they. -/
theorem eq_of_bracketed? {inner : List Char} (h : bracketed? text = some inner) :
    text = '[' :: (inner ++ [']']) := by
  unfold bracketed? at h
  split at h
  · next rest =>
    obtain ⟨hlast, hinner⟩ := Option.ite_none_right_eq_some.1 h
    obtain rfl := Option.some.inj hinner
    rw [List.dropLast_append_getLast? _ hlast]
  · cases h

/-- A text without blanks, commas and brackets that open. -/
structure IsBare (text : List Char) : Prop where
  ne_nil : text ≠ []
  unblank : ∀ c ∈ text, isBlank c = false
  comma : ',' ∉ text
  bracket : '[' ∉ text

namespace IsBare

variable (h : IsBare text)

include h

theorem strip_eq : strip text = text := strip_of_unblank h.unblank

theorem core_eq : core text = text := by
  have hlast : (strip text).getLast? ≠ some ',' := by
    rw [h.strip_eq]
    exact fun hlast => h.comma (List.mem_of_mem_getLast? hlast)
  exact (core_of_getLast? hlast).trans h.strip_eq

theorem bracketed?_eq : bracketed? text = none := by
  unfold bracketed?
  split
  · exact absurd List.mem_cons_self h.bracket
  · rfl

theorem read_eq : read text = readScalar text := by
  have hbracketed : bracketed? (core text) = none := by rw [h.core_eq, h.bracketed?_eq]
  rw [read_of_not_bracketed? hbracketed, h.core_eq]

theorem dropFinalNewline_eq : dropFinalNewline text = text :=
  dropFinalNewline_of_unblank fun _ hc => h.unblank _ (List.mem_of_mem_getLast? hc)

end IsBare

theorem infix_of_bracketed? {inner : List Char} (h : bracketed? text = some inner) :
    inner <:+: text :=
  ⟨['['], [']'], (eq_of_bracketed? h).symm⟩

/-- A number is an optional sign, the digits of its whole part, and those of its fraction. -/
theorem parts_of_numberParts? {negative : Bool} {whole : List Char}
    {fraction? : Option (List Char)} (h : numberParts? text = some (negative, whole, fraction?)) :
    text = NumberFormat.sign negative ++ (whole ++ fraction?.elim [] ('.' :: ·)) ∧
      (whole ≠ [] ∧ whole.all isDigit = true) ∧
      ∀ fraction ∈ fraction?, fraction ≠ [] ∧ fraction.all isDigit = true := by
  unfold numberParts? at h
  split at h
  next sign digits hsign =>
  have htext : text = NumberFormat.sign sign ++ digits := by
    split at hsign
    · next rest =>
      obtain ⟨rfl, rfl⟩ := Prod.mk.inj hsign
      rfl
    · obtain ⟨rfl, rfl⟩ := Prod.mk.inj hsign
      rfl
  obtain ⟨hparts, hsome⟩ := Option.ite_none_right_eq_some.1 h
  cases hsome
  rw [Bool.and_eq_true] at hparts
  refine ⟨(cut_append '.' digits).symm ▸ htext, ?_, fun fraction hfraction => ?_⟩
  · simpa using hparts.1
  · simpa using (Option.all_eq_true _ _).1 hparts.2 fraction hfraction

/-- The whole part of a number is made of digits. -/
theorem digits_of_numberParts? {negative : Bool} {whole : List Char}
    {fraction? : Option (List Char)} (h : numberParts? text = some (negative, whole, fraction?)) :
    whole <:+: text ∧ whole.all isDigit = true := by
  obtain ⟨htext, hwhole, -⟩ := parts_of_numberParts? h
  exact ⟨⟨_, _, ((List.append_assoc _ _ _).trans htext.symm)⟩, hwhole.2⟩

/-- A number ends with a digit. -/
theorem isDigit_of_numberParts? (h : (numberParts? text).isSome = true) {c : Char}
    (hlast : text.getLast? = some c) : isDigit c = true := by
  obtain ⟨⟨negative, whole, fraction?⟩, hparts⟩ := Option.isSome_iff_exists.1 h
  obtain ⟨rfl, ⟨hne, hwhole⟩, hfraction⟩ := parts_of_numberParts? hparts
  cases fraction? with
  | none =>
      simp only [Option.elim_none, List.append_nil] at hlast
      rw [List.getLast?_append_of_ne_nil _ hne] at hlast
      exact List.all_eq_true.1 hwhole c (List.mem_of_getLast? hlast)
  | some fraction =>
      obtain ⟨hne, hdigits⟩ := hfraction fraction rfl
      rw [Option.elim_some, List.append_cons, ← List.append_assoc,
        List.getLast?_append_of_ne_nil _ hne] at hlast
      exact List.all_eq_true.1 hdigits c (List.mem_of_getLast? hlast)

/-- A number holds no minus but the one it begins with. -/
theorem minus_notMem_tail_of_numberParts? (h : (numberParts? text).isSome = true) :
    '-' ∉ text.tail := by
  obtain ⟨⟨negative, whole, fraction?⟩, hparts⟩ := Option.isSome_iff_exists.1 h
  obtain ⟨rfl, ⟨hne, hwhole⟩, hfraction⟩ := parts_of_numberParts? hparts
  have hminus : isDigit '-' = false := by decide
  have hdigits {digits : List Char} (hall : digits.all isDigit = true) : '-' ∉ digits := fun hmem =>
    Bool.false_ne_true (hminus.symm.trans (List.all_eq_true.1 hall '-' hmem))
  have hbody : '-' ∉ whole ++ fraction?.elim [] ('.' :: ·) := by
    rw [List.mem_append, not_or]
    refine ⟨hdigits hwhole, ?_⟩
    cases fraction? with
    | none => exact List.not_mem_nil
    | some fraction =>
        rw [Option.elim_some, List.mem_cons, not_or]
        exact ⟨by decide, hdigits (hfraction fraction rfl).2⟩
  cases negative with
  | true => exact hbody
  | false => exact fun hmem => hbody (List.mem_of_mem_tail hmem)

/-- Digits, and a point with digits behind it if there is one, are a number with any sign. -/
theorem numberParts?_of_cut (negative : Bool) {digits whole : List Char}
    {fraction? : Option (List Char)} (hcut : cut '.' digits = (whole, fraction?))
    (hwhole : whole ≠ [] ∧ whole.all isDigit = true)
    (hfraction : ∀ fraction ∈ fraction?, fraction ≠ [] ∧ fraction.all isDigit = true) :
    numberParts? (NumberFormat.sign negative ++ digits) = some (negative, whole, fraction?) := by
  -- The digits have no minus of their own, which would be taken for the sign.
  have hminus : digits.head? ≠ some '-' := by
    intro hhead
    obtain ⟨rest, rfl⟩ := List.head?_eq_some_iff.1 hhead
    rw [cut, if_neg (by decide)] at hcut
    obtain ⟨rfl, -⟩ := Prod.mk.inj hcut
    exact absurd (List.all_eq_true.1 hwhole.2 '-' List.mem_cons_self) (by decide)
  unfold numberParts?
  split
  next sign body hsign =>
  obtain ⟨rfl, rfl⟩ : negative = sign ∧ digits = body := by
    cases negative with
    | true => exact Prod.mk.inj hsign
    | false =>
        split at hsign
        · next rest heq => exact absurd (congrArg List.head? heq) hminus
        · exact Prod.mk.inj hsign
  rw [hcut]
  refine if_pos ?_
  rw [Bool.and_eq_true]
  exact ⟨by simpa using hwhole, (Option.all_eq_true _ _).2 fun fraction hmem => by
    simpa using hfraction fraction hmem⟩

/-- A number is not a list. -/
theorem bracketed?_of_numberParts? (h : (numberParts? text).isSome = true) :
    bracketed? text = none := by
  refine Option.eq_none_iff_forall_ne_some.2 fun inner hinner => ?_
  have hlast : text.getLast? = some ']' := by
    rw [eq_of_bracketed? hinner, ← List.cons_append, List.getLast?_concat]
  exact absurd (isDigit_of_numberParts? h hlast) (by decide)

theorem readScalar_of_number {negative : Bool} {whole : List Char} {fraction? : Option (List Char)}
    (h : numberParts? (dropFinalNewline text) = some (negative, whole, fraction?)) :
    readScalar text = numberValue negative whole fraction? := by
  have hnumber : (numberParts? (dropFinalNewline text)).isSome = true := by
    rw [h]
    rfl
  have htrue : text ≠ "true".toList := by
    rintro rfl
    exact absurd hnumber (by decide)
  have hfalse : text ≠ "false".toList := by
    rintro rfl
    exact absurd hnumber (by decide)
  rw [readScalar, if_neg htrue, if_neg hfalse, h]

theorem readScalar_of_no_number (htrue : text ≠ "true".toList) (hfalse : text ≠ "false".toList)
    (h : numberParts? (dropFinalNewline text) = none) :
    readScalar text =
      if Iso.looksLikeDate text then readDate text
      else .ok (.str (String.ofList (unquote text))) := by
  rw [readScalar, if_neg htrue, if_neg hfalse, h]

/-- What a literal other than a list is read as. An integer is one that is written again, a text is
the literal without its quotes. -/
inductive Scalar (text : List Char) : Value → Prop
  | bool (b : Bool) : Scalar text (.bool b)
  | int {n : Int} : withinDigits n = true → Scalar text (.int n)
  | float (x : Double) : Scalar text (.float x)
  | date (day : Date) : Scalar text (.date day)
  | dateTime (t : DateTime) : Scalar text (.dateTime t)
  | str : Scalar text (.str (String.ofList (unquote text)))

variable {value : Value}

theorem scalar_of_numberValue {negative : Bool} {whole : List Char} {fraction? : Option (List Char)}
    (h : numberValue negative whole fraction? = .ok value) : Scalar text value := by
  unfold numberValue at h
  split at h
  · split at h
    · next n hn => exact Except.ok.inj h ▸ .int (Numeral.withinDigits_of_signedInteger hn)
    · cases h
  · exact Except.ok.inj h ▸ .float _

theorem scalar_of_readDate (h : readDate text = .ok value) : Scalar text value := by
  unfold readDate at h
  generalize hfound : (if text.length = 10 then _ else _ : Option Value) = found at h
  cases found with
  | none => cases h
  | some found =>
      obtain rfl := Except.ok.inj h
      split at hfound
      · obtain ⟨⟨day, rest⟩, -, rfl⟩ := Option.map_eq_some_iff.1 hfound
        exact .date day
      · obtain ⟨t, -, rfl⟩ := Option.map_eq_some_iff.1 hfound
        exact .dateTime t

theorem scalar_of_readScalar (h : readScalar text = .ok value) : Scalar text value := by
  unfold readScalar at h
  split at h
  · exact Except.ok.inj h ▸ .bool true
  · split at h
    · exact Except.ok.inj h ▸ .bool false
    · split at h
      · exact scalar_of_numberValue h
      · split at h
        · exact scalar_of_readDate h
        · exact Except.ok.inj h ▸ .str

/-- A text that is read as one is read without its quotes. -/
theorem eq_unquote_of_read {s : String} (h : read text = .ok (.str s)) :
    s = String.ofList (unquote (core text)) := by
  cases hbracketed : bracketed? (core text) with
  | some inner =>
      rw [read_of_bracketed? hbracketed] at h
      obtain ⟨values, -, hvalue⟩ := exists_of_bind (f := fun v => .ok (Value.tuple v)) h
      cases hvalue
  | none =>
      rw [read_of_not_bracketed? hbracketed] at h
      cases scalar_of_readScalar h
      rfl

end Literal

end PropertyGraph
