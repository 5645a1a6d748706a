import PropertyGraph.Proofs.Language.Scalar
import PropertyGraph.Proofs.Text.Word

/-!
Labels in brackets. A label is read as any literal is, and the value that it stands for is shown
again as text. The way there and back changes the two truth values and numbers that begin with a
zero, and there is no value for a number of too many digits. All other words come back as they were,
and so does any text between quotation marks.
-/

namespace PropertyGraph

open Text

namespace Literal

/-- A word: letters, digits and underscores of ASCII. -/
structure IsWord (text : List Char) : Prop where
  ne_nil : text ≠ []
  chars : ∀ c ∈ text, isAsciiWordChar c = true

instance (text : List Char) : Decidable (IsWord text) :=
  decidable_of_iff (text ≠ [] ∧ text.all isAsciiWordChar = true)
    ⟨fun h => ⟨h.1, List.all_eq_true.1 h.2⟩, fun h => ⟨h.ne_nil, List.all_eq_true.2 h.chars⟩⟩

namespace IsWord

variable {text : List Char} (h : IsWord text)

include h

theorem notMem {mark : Char} (hmark : isAsciiWordChar mark = false) : mark ∉ text :=
  notMem_of_isAsciiWordChar h.chars hmark

theorem isBare : IsBare text where
  ne_nil := h.ne_nil
  unblank c hc := isBlank_of_isWordChar (isWordChar_of_isAsciiWordChar (h.chars c hc))
  comma := h.notMem (by decide)
  bracket := h.notMem (by decide)

theorem read_eq : read text = readScalar text := h.isBare.read_eq

theorem dropFinalNewline_eq : dropFinalNewline text = text := h.isBare.dropFinalNewline_eq

theorem numberParts?_eq :
    numberParts? text = if text.all isDigit then some (false, text, none) else none := by
  unfold numberParts?
  split
  next sign digits hsign =>
  obtain ⟨rfl, rfl⟩ : false = sign ∧ text = digits := by
    split at hsign
    · exact absurd List.mem_cons_self (h.notMem (by decide))
    · exact Prod.mk.inj hsign
  have hempty : text.isEmpty = false := List.isEmpty_eq_false_iff.2 h.ne_nil
  rw [cut_of_notMem (h.notMem (by decide))]
  simp [hempty]

theorem looksLikeDate_eq : Iso.looksLikeDate text = false := by
  unfold Iso.looksLikeDate
  split
  case h_1 hyphen _ _ _ _ _ _ =>
    have hne : hyphen ≠ '-' := by
      rintro rfl
      have hhyphen : isAsciiWordChar '-' = false := by decide
      exact h.notMem hhyphen (by simp)
    simp [hne]
  case h_2 => rfl

theorem unquote_eq : unquote text = text := by
  have hquote : ∀ c ∈ text, isQuote c = false := by
    intro c hc
    rw [isQuote, Bool.or_eq_false_iff, beq_eq_false_iff_ne, beq_eq_false_iff_ne]
    exact ⟨fun heq => h.notMem (by decide) (heq ▸ hc), fun heq => h.notMem (by decide) (heq ▸ hc)⟩
  have hclosing : text.getLast?.any isQuote = false := by
    cases hlast : text.getLast? with
    | none => rfl
    | some c => exact hquote c (List.mem_of_mem_getLast? hlast)
  cases text with
  | nil => rfl
  | cons c rest =>
      have hopening : (if isQuote c then rest else c :: rest) = c :: rest := by
        rw [hquote c List.mem_cons_self]
        rfl
      simp only [unquote, hopening, h.dropFinalNewline_eq, hclosing]
      rfl

theorem all_isDigit_iff : text.all isDigit = true ↔ ∀ c ∈ text, c ∈ asciiDigits := by
  rw [List.all_eq_true]
  exact ⟨fun hdigits c hc => mem_asciiDigits_of_isDigit (h.chars c hc) (hdigits c hc),
    fun hdigits c hc => isDigit_of_mem_asciiDigits (hdigits c hc)⟩

theorem readScalar_of_digits (hdigits : ∀ c ∈ text, c ∈ asciiDigits) :
    readScalar text = numberValue false text none := by
  refine readScalar_of_number ?_
  rw [h.dropFinalNewline_eq, h.numberParts?_eq, if_pos (h.all_isDigit_iff.2 hdigits)]

theorem readScalar_of_letters (htrue : text ≠ "true".toList) (hfalse : text ≠ "false".toList)
    (hdigits : ¬ ∀ c ∈ text, c ∈ asciiDigits) :
    readScalar text = .ok (.str (String.ofList text)) := by
  have hnumber : numberParts? (dropFinalNewline text) = none := by
    rw [h.dropFinalNewline_eq, h.numberParts?_eq, if_neg (mt h.all_isDigit_iff.1 hdigits)]
  rw [readScalar_of_no_number htrue hfalse hnumber, h.looksLikeDate_eq, h.unquote_eq]
  rfl

end IsWord

/-- The text stays as it is when it is read and shown again: it is no truth value, and if it is made
of digits, it has no zero before others and no more than an integer may have. -/
structure Lasting (text : List Char) : Prop where
  ne_true : text ≠ "true".toList
  ne_false : text ≠ "false".toList
  leading : (∀ c ∈ text, c ∈ asciiDigits) → text.head? = some '0' → text = ['0']
  length_le : (∀ c ∈ text, c ∈ asciiDigits) → text.length ≤ digitLimit

theorem lasting_iff (text : List Char) :
    Lasting text ↔ text ≠ "true".toList ∧ text ≠ "false".toList ∧
      (text.all asciiDigits.contains = true →
        (text.head? = some '0' → text = ['0']) ∧ text.length ≤ digitLimit) := by
  have hdigits : text.all asciiDigits.contains = true ↔ ∀ c ∈ text, c ∈ asciiDigits := by
    simp only [List.all_eq_true, List.contains_iff_mem]
  rw [hdigits]
  exact ⟨fun h => ⟨h.ne_true, h.ne_false, fun hall => ⟨h.leading hall, h.length_le hall⟩⟩,
    fun ⟨htrue, hfalse, h⟩ => ⟨htrue, hfalse, fun hall => (h hall).1, fun hall => (h hall).2⟩⟩

instance (text : List Char) : Decidable (Lasting text) :=
  decidable_of_iff' _ (lasting_iff text)

variable {text : List Char}

theorem lasting_of_letter {c : Char} (hc : c ∈ text) (hletter : c ∉ asciiDigits)
    (htrue : text ≠ "true".toList) (hfalse : text ≠ "false".toList) : Lasting text where
  ne_true := htrue
  ne_false := hfalse
  leading hdigits := absurd (hdigits c hc) hletter
  length_le hdigits := absurd (hdigits c hc) hletter

theorem lasting_natDigits {n : Nat} (h : (natDigits n).length ≤ digitLimit) :
    Lasting (natDigits n) where
  ne_true heq := by
    have hletter : 't' ∈ natDigits n := heq ▸ by decide
    exact absurd (mem_asciiDigits_of_mem_natDigits hletter) (by decide)
  ne_false heq := by
    have hletter : 'f' ∈ natDigits n := heq ▸ by decide
    exact absurd (mem_asciiDigits_of_mem_natDigits hletter) (by decide)
  leading _ := eq_zero_of_head_natDigits
  length_le _ := h

theorem plain_natural (n : Nat) : (Value.int n).plain = natDigits n := intDigits_natCast n

theorem numberValue_natural (h : text.length ≤ digitLimit) :
    numberValue false text none = .ok (.int (digitsValue text)) := by
  rw [numberValue, Numeral.signedInteger, Numeral.natural, if_neg (Nat.not_lt.2 h)]
  rfl

/-- A lasting word is read as a value that is shown as this word. -/
theorem exists_read_of_lasting (hword : IsWord text) (h : Lasting text) :
    ∃ value, read text = .ok value ∧ value.plain = text := by
  rw [hword.read_eq]
  by_cases hdigits : ∀ c ∈ text, c ∈ asciiDigits
  · refine ⟨.int (digitsValue text), ?_, ?_⟩
    · rw [hword.readScalar_of_digits hdigits, numberValue_natural (h.length_le hdigits)]
    · rw [plain_natural, natDigits_digitsValue hword.ne_nil hdigits (h.leading hdigits)]
  · refine ⟨.str (String.ofList text),
      hword.readScalar_of_letters h.ne_true h.ne_false hdigits, ?_⟩
    exact String.toList_ofList

/-- Whatever word is read, the value is shown as a lasting one. -/
theorem lasting_plain (hword : IsWord text) {value : Value} (h : read text = .ok value) :
    Lasting value.plain := by
  rw [hword.read_eq] at h
  by_cases htrue : text = "true".toList
  · subst htrue
    obtain rfl := Except.ok.inj h
    exact lasting_of_letter (c := 'T') (by decide) (by decide) (by decide) (by decide)
  by_cases hfalse : text = "false".toList
  · subst hfalse
    obtain rfl := Except.ok.inj h
    exact lasting_of_letter (c := 'F') (by decide) (by decide) (by decide) (by decide)
  by_cases hdigits : ∀ c ∈ text, c ∈ asciiDigits
  · rw [hword.readScalar_of_digits hdigits] at h
    by_cases hlength : text.length ≤ digitLimit
    · rw [numberValue_natural hlength] at h
      obtain rfl := Except.ok.inj h
      rw [plain_natural]
      have hwidth : (natDigits (digitsValue text)).length ≤ text.length :=
        length_natDigits_le (List.length_pos_of_ne_nil hword.ne_nil) (digitsValue_lt text)
      exact lasting_natDigits (Nat.le_trans hwidth hlength)
    · rw [numberValue, Numeral.signedInteger, Numeral.natural,
        if_pos (Nat.lt_of_not_le hlength)] at h
      cases h
  · rw [hword.readScalar_of_letters htrue hfalse hdigits] at h
    obtain rfl := Except.ok.inj h
    obtain ⟨c, hc, hletter⟩ : ∃ c ∈ text, c ∉ asciiDigits := by
      simpa only [not_forall, exists_prop] using hdigits
    have hplain : (Value.str (String.ofList text)).plain = text := String.toList_ofList
    rw [hplain]
    exact lasting_of_letter hc hletter htrue hfalse

/-- The text between quotation marks. -/
def quoted (text : List Char) : List Char := '"' :: (text ++ ['"'])

theorem core_quoted (text : List Char) : core (quoted text) = quoted text :=
  core_enclosed (by decide) (by decide) (by decide) text

/-- A text in quotation marks is the text between them. -/
theorem read_quoted (text : List Char) : read (quoted text) = .ok (.str (String.ofList text)) := by
  have hend : dropFinalNewline (text ++ ['"']) = text ++ ['"'] := by
    rw [dropFinalNewline, List.getLast?_concat, if_neg (by decide)]
  have hnewline : dropFinalNewline (quoted text) = quoted text := by
    rw [quoted, dropFinalNewline, ← List.cons_append, List.getLast?_concat, if_neg (by decide)]
  have hnumber : numberParts? (quoted text) = none := by
    have hdigit : isDigit '"' = false := by decide
    simp [quoted, numberParts?, cut, hdigit]
  have hunquote : unquote (quoted text) = text := by
    simp [quoted, unquote, hend, isQuote]
  have hbracketed : bracketed? (core (quoted text)) = none := by
    rw [core_quoted]
    rfl
  have hdate : Iso.looksLikeDate (quoted text) = false := by
    have hdigit : isDigit '"' = false := by decide
    unfold Iso.looksLikeDate
    split
    · next heq =>
      rw [← (List.cons.inj heq).1]
      simp [hdigit]
    · rfl
  rw [read_of_not_bracketed? hbracketed, core_quoted, readScalar_of_no_number (by simp [quoted])
    (by simp [quoted]) (hnewline.symm ▸ hnumber), hdate, hunquote]
  rfl

theorem items_append_comma (front rest : List Char) :
    items (front ++ ',' :: rest) = items front ++ items rest := by
  rw [items, pieces_append_mark (p := (· == ',')) (beq_self_eq_true ','), List.filter_append]
  rfl

theorem items_of_notMem {text : List Char} (hcomma : ',' ∉ text) (hne : strip text ≠ []) :
    items text = [text] := by
  rw [items, pieces_of_notMem hcomma, List.filter_singleton, List.isEmpty_eq_false_iff.2 hne]
  rfl

theorem IsBare.items_eq {text : List Char} (h : IsBare text) : items text = [text] :=
  items_of_notMem h.comma (by rw [h.strip_eq]; exact h.ne_nil)

/-- Texts listed with commas between them have the items of each. -/
theorem items_join (text : List Char) (more : List (List Char)) :
    items (join ", ".toList (text :: more)) = (text :: more.map (' ' :: ·)).flatMap items := by
  have hpieces : pieces (· == ',') (join ", ".toList (text :: more)) =
      (text :: more.map (' ' :: ·)).flatMap (pieces (· == ',')) :=
    pieces_join_flatMap ',' [' '] text more
  rw [items, hpieces, List.filter_flatMap]
  rfl

theorem mapM_read_items_cons_space (text : List Char) :
    (items (' ' :: text)).mapM read = (items text).mapM read := by
  have hspace : (' ' == ',') = false := by decide
  cases hpieces : pieces (· == ',') text with
  | nil => exact absurd hpieces (pieces_ne_nil _ _)
  | cons piece more =>
      rw [items, items, pieces_cons_of_false (p := (· == ',')) hspace, hpieces, List.headD_cons,
        List.tail_cons, List.filter_cons, List.filter_cons, strip_cons_blank isBlank_space]
      split
      · rw [List.mapM_cons, List.mapM_cons, read_cons_space]
      · rfl

/-- Spaces before the texts of a list are passed over. -/
theorem mapM_read_items_spaced (texts : List (List Char)) :
    ((texts.map (' ' :: ·)).flatMap items).mapM read = (texts.flatMap items).mapM read := by
  induction texts with
  | nil => rfl
  | cons text more ih =>
      rw [List.map_cons, List.flatMap_cons, List.flatMap_cons, List.mapM_append, List.mapM_append,
        mapM_read_items_cons_space, ih]

/-- A list in brackets is read item by item. -/
theorem read_listing (text : List Char) (more : List (List Char)) :
    read ('[' :: (join ", ".toList (text :: more) ++ [']'])) =
      Value.tuple <$> ((text :: more).flatMap items).mapM read := by
  have hbracketed : bracketed? (core ('[' :: (join ", ".toList (text :: more) ++ [']']))) =
      some (join ", ".toList (text :: more)) := by
    rw [core_enclosed (by decide) (by decide) (by decide)]
    simp [bracketed?]
  rw [read_of_bracketed? hbracketed, items_join, List.flatMap_cons, List.flatMap_cons,
    List.mapM_append, List.mapM_append, mapM_read_items_spaced]

/-- A list of bare texts in brackets is read text by text. -/
theorem read_bare_listing {texts : List (List Char)} (hne : texts ≠ [])
    (h : ∀ text ∈ texts, IsBare text) :
    read ('[' :: (join ", ".toList texts ++ [']'])) = Value.tuple <$> texts.mapM read := by
  obtain ⟨text, more, rfl⟩ := List.exists_cons_of_ne_nil hne
  have hitems : ∀ piece ∈ text :: more, items piece = [piece] := fun piece hpiece =>
    (h piece hpiece).items_eq
  rw [read_listing, List.flatMap_congr hitems, List.flatMap_singleton']

/-- A list of words in brackets is read word by word. -/
theorem read_words {words : List (List Char)} (hne : words ≠ [])
    (h : ∀ word ∈ words, IsWord word) :
    read ('[' :: (join ", ".toList words ++ [']'])) = Value.tuple <$> words.mapM read :=
  read_bare_listing hne fun word hword => (h word hword).isBare

end Literal

end PropertyGraph
