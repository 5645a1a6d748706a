import PropertyGraph.Proofs.Number.Text
import PropertyGraph.Proofs.Text.Escape

/-!
The text of a tree on one line determines the tree. Strings, arrays and objects end at marks of
their own; numbers and names end where a comma or a closing mark follows, which none of them holds.
-/

namespace PropertyGraph

open Text

namespace NumberFormat

/-- The text of a decimal is not that of an integer. -/
theorem exists_mark_mem_decimal {format : NumberFormat} (hwhole : format.wholeEnding = ['.', '0'])
    (d : Decimal) : ∃ c ∈ format.decimal d, c ∉ '-' :: asciiDigits := by
  have hpoint : '.' ∉ '-' :: asciiDigits := by decide
  have hmark : 'e' ∉ '-' :: asciiDigits := by decide
  unfold decimal
  dsimp only
  split
  · refine ⟨'.', ?_, hpoint⟩
    unfold positional
    split
    · simp
    · split
      · simp [hwhole]
      · simp
  · refine ⟨'e', ?_, hmark⟩
    simp [scientific]

theorem exists_mark_mem_write (x : Double) :
    ∃ c ∈ jsonFormat.write x, c ∉ '-' :: asciiDigits := by
  cases x with
  | finite negative units hunits =>
      by_cases hzero : units = 0
      · refine ⟨'.', ?_, by decide⟩
        rw [write, if_pos hzero]
        exact List.mem_append_right _ (by decide)
      · have hwhole : jsonFormat.wholeEnding = ['.', '0'] := rfl
        obtain ⟨c, hc, hmark⟩ := exists_mark_mem_decimal hwhole (Decimal.shortest units)
        refine ⟨c, ?_, hmark⟩
        rw [write, if_neg hzero]
        exact List.mem_append_right _ hc
  | infinite negative => exact ⟨'I', List.mem_append_right _ (by decide), by decide⟩
  | nan => exact ⟨'N', by decide, by decide⟩

/-- The characters of numbers in JSON. -/
def jsonChars : List Char := "0123456789.e+-NaInfity".toList

theorem mem_write_json {x : Double} {c : Char} (h : c ∈ jsonFormat.write x) : c ∈ jsonChars := by
  have hsign : ∀ negative, ∀ c ∈ sign negative, c ∈ jsonChars := by
    intro negative
    cases negative <;> exact List.all_iff_forall_prop.1 (by decide)
  have hnumeral : ∀ c ∈ numeralChars, c ∈ jsonChars := List.all_iff_forall_prop.1 (by decide)
  cases x with
  | finite negative units hunits =>
      obtain ⟨text, hwrite, htext, -⟩ := isNumeral_write readable_json negative hunits
      rw [hwrite] at h
      rcases List.mem_append.1 h with h | h
      · exact hsign negative c h
      · exact hnumeral c (htext.chars c h)
  | infinite negative =>
      rcases List.mem_append.1 h with h | h
      · exact hsign negative c h
      · have hinfinity : ∀ c ∈ jsonFormat.infinity, c ∈ jsonChars :=
          List.all_iff_forall_prop.1 (by decide)
        exact hinfinity c h
  | nan =>
      have hnan : ∀ c ∈ jsonFormat.nan, c ∈ jsonChars := List.all_iff_forall_prop.1 (by decide)
      exact hnan c h

end NumberFormat

namespace Json

/-- Null, a truth value or a number: a tree whose text has no mark at its end. -/
def isWord : Json → Bool
  | .null | .bool _ | .int _ | .float _ => true
  | .str _ | .array _ | .object _ => false

/-- The characters of such texts. -/
def wordChars : List Char := "0123456789.e+-NaInfitynulrs".toList

theorem compact_of_isWord {tree : Json} (h : tree.isWord = true) : tree.compact = tree.leaf := by
  cases tree <;> first | rfl | cases h

theorem mem_wordChars {tree : Json} (h : tree.isWord = true) {c : Char} (hc : c ∈ tree.leaf) :
    c ∈ wordChars := by
  cases tree with
  | null =>
      have hall : ∀ c ∈ "null".toList, c ∈ wordChars := List.all_iff_forall_prop.1 (by decide)
      exact hall c hc
  | bool b =>
      have hall : ∀ c ∈ (Json.bool b).leaf, c ∈ wordChars := by
        cases b <;> exact List.all_iff_forall_prop.1 (by decide)
      exact hall c hc
  | int n =>
      have hall : ∀ c ∈ '-' :: asciiDigits, c ∈ wordChars :=
        List.all_iff_forall_prop.1 (by decide)
      exact hall c (mem_intDigits hc)
  | float x =>
      have hall : ∀ c ∈ NumberFormat.jsonChars, c ∈ wordChars :=
        List.all_iff_forall_prop.1 (by decide)
      exact hall c (NumberFormat.mem_write_json hc)
  | str s => cases h
  | array items => cases h
  | object members => cases h

theorem leaf_ne_nil {tree : Json} (h : tree.isWord = true) : tree.leaf ≠ [] := by
  cases tree with
  | null => decide
  | bool b => cases b <;> decide
  | int n => exact intDigits_ne_nil n
  | float x =>
      obtain ⟨c, hc, -⟩ := NumberFormat.exists_mark_mem_write x
      exact List.ne_nil_of_mem hc
  | str s => cases h
  | array items => cases h
  | object members => cases h

/-- A name is not the text of a number. -/
theorem name_ne_number {name : List Char} (hread : Numeral.double name = none)
    (hchar : ∃ c ∈ name, c ∉ '-' :: asciiDigits) :
    (∀ n, name ≠ intDigits n) ∧ ∀ x, name ≠ jsonFormat.write x := by
  constructor
  · rintro n rfl
    obtain ⟨c, hc, hnot⟩ := hchar
    exact hnot (mem_intDigits hc)
  · rintro x rfl
    rw [NumberFormat.double_write NumberFormat.readable_json] at hread
    cases hread

theorem null_ne_number : (∀ n, "null".toList ≠ intDigits n) ∧
    ∀ x, "null".toList ≠ jsonFormat.write x :=
  name_ne_number (by decide) ⟨'n', by decide, by decide⟩

theorem bool_ne_number (b : Bool) : (∀ n, (bool b).leaf ≠ intDigits n) ∧
    ∀ x, (bool b).leaf ≠ jsonFormat.write x := by
  cases b with
  | false => exact name_ne_number (by decide) ⟨'f', by decide, by decide⟩
  | true => exact name_ne_number (by decide) ⟨'t', by decide, by decide⟩

theorem intDigits_ne_write (n : Int) (x : Double) : intDigits n ≠ jsonFormat.write x := by
  intro h
  obtain ⟨c, hc, hmark⟩ := NumberFormat.exists_mark_mem_write x
  rw [← h] at hc
  exact hmark (mem_intDigits hc)

theorem leaf_inj {v w : Json} (hv : v.isWord = true) (hw : w.isWord = true)
    (h : v.leaf = w.leaf) : v = w := by
  have hnullBool : ∀ b, Json.null.leaf ≠ (bool b).leaf := by decide
  have hbool : ∀ a b, (bool a).leaf = (bool b).leaf → a = b := by decide
  cases v with
  | null =>
      cases w with
      | null => rfl
      | bool b => exact absurd h (hnullBool b)
      | int n => exact absurd h (null_ne_number.1 n)
      | float x => exact absurd h (null_ne_number.2 x)
      | str s => cases hw
      | array items => cases hw
      | object members => cases hw
  | bool a =>
      cases w with
      | null => exact absurd h.symm (hnullBool a)
      | bool b => rw [hbool a b h]
      | int n => exact absurd h ((bool_ne_number a).1 n)
      | float x => exact absurd h ((bool_ne_number a).2 x)
      | str s => cases hw
      | array items => cases hw
      | object members => cases hw
  | int m =>
      cases w with
      | null => exact absurd h.symm (null_ne_number.1 m)
      | bool b => exact absurd h.symm ((bool_ne_number b).1 m)
      | int n => rw [intDigits_inj h]
      | float x => exact absurd h (intDigits_ne_write m x)
      | str s => cases hw
      | array items => cases hw
      | object members => cases hw
  | float x =>
      cases w with
      | null => exact absurd h.symm (null_ne_number.2 x)
      | bool b => exact absurd h.symm ((bool_ne_number b).2 x)
      | int n => exact absurd h.symm (intDigits_ne_write n x)
      | float y => rw [NumberFormat.write_inj NumberFormat.readable_json h]
      | str s => cases hw
      | array items => cases hw
      | object members => cases hw
  | str s => cases hv
  | array items => cases hv
  | object members => cases hv

/-- The characters that can follow a tree within another one. -/
def enders : List Char := [',', ']', '\x7d']

/-- The text is empty or begins with what can follow a tree. -/
def Closed (text : List Char) : Prop := ∀ c ∈ text.head?, c ∈ enders

theorem closed_nil : Closed [] := fun _ h => by cases h

theorem closed_cons {c : Char} (h : c ∈ enders) (rest : List Char) : Closed (c :: rest) := by
  intro d hd
  obtain rfl := Option.some.inj hd
  exact h

/-- Words end where something else begins. -/
theorem word_append_inj {a b first second : List Char} (ha : ∀ c ∈ a, c ∈ wordChars)
    (hb : ∀ c ∈ b, c ∈ wordChars) (hfirst : Closed first) (hsecond : Closed second)
    (h : a ++ first = b ++ second) : a = b ∧ first = second := by
  have htake : ∀ word rest : List Char, (∀ c ∈ word, c ∈ wordChars) → Closed rest →
      (word ++ rest).takeWhile (· ∈ wordChars) = word := by
    intro word rest hword hrest
    rw [List.takeWhile_append_of_pos (by simpa using hword)]
    cases rest with
    | nil => simp
    | cons c rest =>
        have hall : ∀ c ∈ enders, c ∉ wordChars := List.all_iff_forall_prop.1 (by decide)
        have hc : c ∉ wordChars := hall c (hrest c rfl)
        simp [hc]
  have hword : a = b := by rw [← htake a first ha hfirst, h, htake b second hb hsecond]
  subst hword
  exact ⟨rfl, List.append_cancel_left h⟩

/-- The mark with which the text of a tree begins; a word has none. -/
def opening : Json → Option Char
  | .str _ => some '"'
  | .array _ => some '['
  | .object _ => some '\x7b'
  | _ => none

/-- The first character of a tree tells its kind, and nothing follows a tree that begins so. -/
theorem head_compact {tree : Json} {c : Char} {rest first : List Char}
    (h : tree.compact ++ first = c :: rest) :
    tree.opening = ['"', '[', '\x7b'].find? (· == c) ∧ c ∉ enders := by
  by_cases hword : tree.isWord = true
  · rw [compact_of_isWord hword] at h
    obtain ⟨d, leaf, hleaf⟩ := List.exists_cons_of_ne_nil (leaf_ne_nil hword)
    have hd : d ∈ wordChars := mem_wordChars hword (by rw [hleaf]; exact List.mem_cons_self)
    rw [hleaf] at h
    obtain ⟨rfl, -⟩ := List.cons.inj h
    have hall : ∀ c ∈ wordChars, ['"', '[', '\x7b'].find? (· == c) = none ∧ c ∉ enders :=
      List.all_iff_forall_prop.1 (by decide)
    obtain ⟨hnone, hender⟩ := hall d hd
    refine ⟨?_, hender⟩
    rw [hnone]
    cases tree <;> first | rfl | cases hword
  · cases tree with
    | str s =>
        obtain ⟨rfl, -⟩ := List.cons.inj h
        exact ⟨rfl, by decide⟩
    | array items =>
        obtain ⟨rfl, -⟩ := List.cons.inj h
        exact ⟨rfl, by decide⟩
    | object members =>
        obtain ⟨rfl, -⟩ := List.cons.inj h
        exact ⟨rfl, by decide⟩
    | null => exact absurd rfl hword
    | bool b => exact absurd rfl hword
    | int n => exact absurd rfl hword
    | float x => exact absurd rfl hword

/-- What follows the first item of an array. -/
def itemsTail : List Json → List Char
  | [] => []
  | item :: rest => ',' :: ' ' :: compactItems (item :: rest)

theorem compactItems_cons (item : Json) (rest : List Json) :
    compactItems (item :: rest) = compact item ++ itemsTail rest := by
  cases rest with
  | nil => simp [compactItems, itemsTail]
  | cons next rest => simp [compactItems, itemsTail]

/-- What follows the first member of an object. -/
def membersTail : List (String × Json) → List Char
  | [] => []
  | member :: rest => ',' :: ' ' :: compactMembers (member :: rest)

theorem compactMembers_cons (key : String) (value : Json) (rest : List (String × Json)) :
    compactMembers ((key, value) :: rest) =
      string key ++ (':' :: ' ' :: (compact value ++ membersTail rest)) := by
  cases rest with
  | nil => simp [compactMembers, membersTail]
  | cons next rest => simp [compactMembers, membersTail]

theorem closed_itemsTail (items : List Json) (rest : List Char) :
    Closed (itemsTail items ++ ']' :: rest) := by
  cases items with
  | nil => exact closed_cons (by decide) _
  | cons item items => exact closed_cons (by decide) _

theorem closed_membersTail (members : List (String × Json)) (rest : List Char) :
    Closed (membersTail members ++ '\x7d' :: rest) := by
  cases members with
  | nil => exact closed_cons (by decide) _
  | cons member members => exact closed_cons (by decide) _

theorem compact_ne_nil (tree : Json) : tree.compact ≠ [] := by
  by_cases hword : tree.isWord = true
  · rw [compact_of_isWord hword]
    exact leaf_ne_nil hword
  · cases tree with
    | str s => exact List.cons_ne_nil _ _
    | array items => exact List.cons_ne_nil _ _
    | object members => exact List.cons_ne_nil _ _
    | _ => exact absurd rfl hword

theorem opening_eq {v w : Json} {first second : List Char}
    (h : v.compact ++ first = w.compact ++ second) : v.opening = w.opening := by
  obtain ⟨c, rest, hv⟩ := List.exists_cons_of_ne_nil
    (List.append_ne_nil_of_left_ne_nil (compact_ne_nil v) first)
  rw [(head_compact hv).1, (head_compact (h.symm.trans hv)).1]

theorem compact_append_inj_of_isWord {v w : Json} (hv : v.isWord = true)
    (hopening : v.opening = w.opening) {first second : List Char} (hfirst : Closed first)
    (hsecond : Closed second) (h : v.compact ++ first = w.compact ++ second) :
    v = w ∧ first = second := by
  -- A tree with no opening mark is a word, so the other one is too.
  have hnone : v.opening = none := by cases v <;> first | rfl | cases hv
  have hw : w.isWord = true := by
    rw [hnone] at hopening
    cases w <;> first | rfl | cases hopening
  rw [compact_of_isWord hv, compact_of_isWord hw] at h
  obtain ⟨hleaf, hrest⟩ := word_append_inj (fun c => mem_wordChars hv) (fun c => mem_wordChars hw)
    hfirst hsecond h
  exact ⟨leaf_inj hv hw hleaf, hrest⟩

mutual

/-- A tree is determined by a text that it begins, if nothing that could belong to it follows. -/
theorem compact_append_inj : ∀ (v w : Json) {first second : List Char}, Closed first →
    Closed second → v.compact ++ first = w.compact ++ second → v = w ∧ first = second
  | v, w, first, second, hfirst, hsecond, h => by
    have hopening := opening_eq h
    cases v with
    | array items =>
        cases w with
        | array others =>
            simp only [compact, List.cons_append, List.append_assoc, List.nil_append] at h
            obtain ⟨rfl, hrest⟩ := compactItems_append_inj items others (List.cons.inj h).2
            exact ⟨rfl, hrest⟩
        | _ => cases hopening
    | object members =>
        cases w with
        | object others =>
            simp only [compact, List.cons_append, List.append_assoc, List.nil_append] at h
            obtain ⟨rfl, hrest⟩ := compactMembers_append_inj members others (List.cons.inj h).2
            exact ⟨rfl, hrest⟩
        | _ => cases hopening
    | str s =>
        cases w with
        | str t =>
            obtain ⟨rfl, hrest⟩ := string_append_inj h
            exact ⟨rfl, hrest⟩
        | _ => cases hopening
    | _ => exact compact_append_inj_of_isWord rfl hopening hfirst hsecond h

theorem compactItems_append_inj : ∀ (items others : List Json) {first second : List Char},
    compactItems items ++ ']' :: first = compactItems others ++ ']' :: second →
      items = others ∧ first = second
  | [], [], _, _, h => ⟨rfl, (List.cons.inj h).2⟩
  | [], item :: others, _, _, h => by
    rw [compactItems_cons, List.append_assoc] at h
    exact absurd (by decide) (head_compact h.symm).2
  | item :: items, [], _, _, h => by
    rw [compactItems_cons, List.append_assoc] at h
    exact absurd (by decide) (head_compact h).2
  | item :: items, other :: others, first, second, h => by
    rw [compactItems_cons, compactItems_cons, List.append_assoc, List.append_assoc] at h
    obtain ⟨rfl, htail⟩ := compact_append_inj item other (closed_itemsTail items first)
      (closed_itemsTail others second) h
    cases items with
    | nil =>
        cases others with
        | nil => exact ⟨rfl, (List.cons.inj htail).2⟩
        | cons next others => exact absurd (List.cons.inj htail).1 (by decide)
    | cons next items =>
        cases others with
        | nil => exact absurd (List.cons.inj htail).1 (by decide)
        | cons next' others =>
            obtain ⟨hitems, hrest⟩ := compactItems_append_inj (next :: items) (next' :: others)
              (List.cons.inj (List.cons.inj htail).2).2
            rw [hitems]
            exact ⟨rfl, hrest⟩

theorem compactMembers_append_inj : ∀ (members others : List (String × Json))
    {first second : List Char},
    compactMembers members ++ '\x7d' :: first = compactMembers others ++ '\x7d' :: second →
      members = others ∧ first = second
  | [], [], _, _, h => ⟨rfl, (List.cons.inj h).2⟩
  | [], (key, value) :: others, _, _, h => by
    rw [compactMembers_cons] at h
    exact absurd (List.cons.inj h).1 (by decide)
  | (key, value) :: members, [], _, _, h => by
    rw [compactMembers_cons] at h
    exact absurd (List.cons.inj h).1 (by decide)
  | (key, value) :: members, (key', value') :: others, first, second, h => by
    simp only [compactMembers_cons, List.append_assoc, List.cons_append] at h
    obtain ⟨rfl, hcolon⟩ := string_append_inj h
    have hvalue := (List.cons.inj (List.cons.inj hcolon).2).2
    obtain ⟨rfl, htail⟩ := compact_append_inj value value' (closed_membersTail members first)
      (closed_membersTail others second) hvalue
    cases members with
    | nil =>
        cases others with
        | nil => exact ⟨rfl, (List.cons.inj htail).2⟩
        | cons next others => exact absurd (List.cons.inj htail).1 (by decide)
    | cons next members =>
        cases others with
        | nil => exact absurd (List.cons.inj htail).1 (by decide)
        | cons next' others =>
            obtain ⟨hmembers, hrest⟩ := compactMembers_append_inj (next :: members)
              (next' :: others) (List.cons.inj (List.cons.inj htail).2).2
            rw [hmembers]
            exact ⟨rfl, hrest⟩

end

/-- No two trees have the same text. -/
theorem compact_inj {v w : Json} (h : v.compact = w.compact) : v = w := by
  have happend : v.compact ++ [] = w.compact ++ [] := by rw [h]
  exact (compact_append_inj v w closed_nil closed_nil happend).1

end Json

end PropertyGraph
