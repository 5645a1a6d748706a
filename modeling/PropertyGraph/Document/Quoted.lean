import PropertyGraph.Document.Spot

/-!
Quoted scalars. Reading one takes two steps: the text up to the closing mark is read as glyphs, and
the glyphs are then joined, blanks around the ends of lines dropped. Characters written as escapes
are never dropped.
-/

namespace PropertyGraph.Document

/-- A part of a quoted scalar. -/
inductive Glyph where
  | text (c : Char)
  | blank (c : Char)
  | lineBreak (c : Char)
  /-- An escaped end of line: the lines are joined with nothing between them. -/
  | joint
  deriving DecidableEq

namespace Glyph

/-- What an unescaped character is. -/
def ofChar (c : Char) : Glyph :=
  if isBreak c then lineBreak (breakChar c)
  else if c = ' ' ∨ c = '\t' then blank c
  else text c

/-- The character that a letter after a backslash stands for. -/
def ofEscape? : Char → Option Char
  | '0' => some '\x00'
  | 'a' => some '\x07'
  | 'b' => some '\x08'
  | 't' | '\t' => some '\t'
  | 'n' => some '\n'
  | 'v' => some '\x0b'
  | 'f' => some '\x0c'
  | 'r' => some '\r'
  | 'e' => some '\x1b'
  | ' ' => some ' '
  | '"' => some '"'
  | '\\' => some '\\'
  | '/' => some '/'
  | 'N' => some '\x85'
  | '_' => some '\xa0'
  | 'L' => some '\u2028'
  | 'P' => some '\u2029'
  | _ => none

/-- The number of digits after a letter that opens a numeric escape. -/
def digitCount? : Char → Option Nat
  | 'x' => some 2
  | 'u' => some 4
  | 'U' => some 8
  | _ => none

end Glyph

def hexValue? (c : Char) : Option Nat :=
  if '0' ≤ c ∧ c ≤ '9' then some (c.toNat - '0'.toNat)
  else if 'a' ≤ c ∧ c ≤ 'f' then some (c.toNat - 'a'.toNat + 10)
  else if 'A' ≤ c ∧ c ≤ 'F' then some (c.toNat - 'A'.toNat + 10)
  else none

/-- A number of so many digits of base sixteen, and the text after it. -/
def hexNumber : Nat → Nat → List Spot → Option (Nat × List Spot)
  | 0, value, rest => some (value, rest)
  | _ + 1, _, [] => none
  | count + 1, value, s :: rest =>
    (hexValue? s.char).bind fun digit => hexNumber count (16 * value + digit) rest

theorem length_le_of_hexNumber {count value result : Nat} {text rest : List Spot}
    (h : hexNumber count value text = some (result, rest)) : rest.length ≤ text.length := by
  fun_induction hexNumber count value text with
  | case1 => simp_all
  | case2 => simp at h
  | case3 count value s more ih =>
    obtain ⟨digit, _, h⟩ := Option.bind_eq_some_iff.1 h
    exact Nat.le_succ_of_le (ih digit h)

/-- The character of a code point. -/
def charOf? (point : Nat) : Option Char :=
  if h : point.isValidChar then some ⟨point.toUInt32, by
    have small : point < UInt32.size := by
      rcases h with h | ⟨_, h⟩ <;> simp only [UInt32.size] <;> omega
    simpa [UInt32.isValidChar, Nat.mod_eq_of_lt small] using h⟩
  else none

/-- The second half of a character beyond the first 65536, in an escape of its own. -/
def lowHalf? : List Spot → Option (Nat × List Spot)
  | ⟨'\\', _⟩ :: ⟨'u', _⟩ :: rest =>
    (hexNumber 4 0 rest).filter fun found => 0xDC00 ≤ found.1 && found.1 < 0xE000
  | _ => none

/-- A character written by its number, after the letter that opens the escape. -/
def numericEscape (count : Nat) (text : List Spot) : Option (Char × List Spot) := do
  let (point, rest) ← hexNumber count 0 text
  if 0xD800 ≤ point && point < 0xDC00 then
    let (low, rest) ← lowHalf? rest
    return (← charOf? (0x10000 + (point - 0xD800) * 0x400 + (low - 0xDC00)), rest)
  else return (← charOf? point, rest)

theorem length_le_of_numericEscape {count : Nat} {text rest : List Spot} {c : Char}
    (h : numericEscape count text = some (c, rest)) : rest.length ≤ text.length := by
  simp only [numericEscape, Option.bind_eq_bind, Option.bind_eq_some_iff, Option.pure_def] at h
  obtain ⟨⟨point, after⟩, first, h⟩ := h
  have start := length_le_of_hexNumber first
  dsimp only at h
  split at h
  · obtain ⟨⟨low, more⟩, second, h⟩ := Option.bind_eq_some_iff.1 h
    obtain ⟨_, _, h⟩ := Option.bind_eq_some_iff.1 h
    obtain ⟨rfl, rfl⟩ : _ ∧ more = rest := by simpa using h
    unfold lowHalf? at second
    split at second
    · have := length_le_of_hexNumber (Option.filter_eq_some_iff.1 second).1
      simp only [List.length_cons] at start
      omega
    · simp at second
  · obtain ⟨_, _, h⟩ := Option.bind_eq_some_iff.1 h
    obtain ⟨rfl, rfl⟩ : _ ∧ after = rest := by simpa using h
    exact start

/-- A character of a scalar, unless a line of the scalar begins as a separator of documents. -/
def glyphAt (c : Char) (rest : List Spot) : Option Glyph :=
  if isBreak c && atSeparator rest then none else some (.ofChar c)

/-- The glyphs before the apostrophe that closes a scalar, and the text after it. Two apostrophes
stand for one. -/
def singleQuoted : List Spot → Option (List Glyph × List Spot)
  | [] => none
  | ⟨'\'', _⟩ :: ⟨'\'', _⟩ :: rest => do
    let (glyphs, after) ← singleQuoted rest
    return (.text '\'' :: glyphs, after)
  | s :: rest =>
    if s.char = '\'' then some ([], rest)
    else do
      let glyph ← glyphAt s.char rest
      let (glyphs, after) ← singleQuoted rest
      return (glyph :: glyphs, after)

/-- What a backslash and the text after it stand for, and the text that follows. -/
def escape : List Spot → Option (Glyph × List Spot)
  | [] => none
  | s :: rest =>
    if isBreak s.char then if atSeparator rest then none else some (.joint, rest)
    else
      match Glyph.digitCount? s.char with
      | some count => (numericEscape count rest).map fun found => (.text found.1, found.2)
      | none => (Glyph.ofEscape? s.char).map fun c => (.text c, rest)

theorem length_lt_of_escape {text rest : List Spot} {glyph : Glyph}
    (h : escape text = some (glyph, rest)) : rest.length < text.length := by
  cases text with
  | nil => simp [escape] at h
  | cons s more =>
    simp only [List.length_cons, Nat.lt_succ_iff]
    rw [escape] at h
    split at h
    · split at h
      · simp at h
      · obtain ⟨_, rfl⟩ : _ ∧ more = rest := by simpa using h
        exact Nat.le_refl _
    · split at h
      · obtain ⟨found, numeric, h⟩ := Option.map_eq_some_iff.1 h
        obtain ⟨_, rfl⟩ := Prod.mk.inj h
        exact length_le_of_numericEscape numeric
      · obtain ⟨c, _, h⟩ := Option.map_eq_some_iff.1 h
        obtain ⟨_, rfl⟩ := Prod.mk.inj h
        exact Nat.le_refl _

/-- The glyphs before the quotation mark that closes a scalar, and the text after it. -/
def doubleQuoted (text : List Spot) : Option (List Glyph × List Spot) :=
  match text with
  | [] => none
  | s :: rest =>
    if s.char = '"' then some ([], rest)
    else if s.char = '\\' then
      match h : escape rest with
      | none => none
      | some (glyph, more) =>
        have : more.length < rest.length := length_lt_of_escape h
        (doubleQuoted more).map fun found => (glyph :: found.1, found.2)
    else
      match glyphAt s.char rest with
      | none => none
      | some glyph => (doubleQuoted rest).map fun found => (glyph :: found.1, found.2)
termination_by text.length

theorem length_lt_of_singleQuoted {text rest : List Spot} {glyphs : List Glyph}
    (h : singleQuoted text = some (glyphs, rest)) : rest.length < text.length := by
  fun_induction singleQuoted text generalizing glyphs with
  | case1 => simp at h
  | case2 _ _ more ih =>
    simp only [Option.bind_eq_bind, Option.bind_eq_some_iff] at h
    obtain ⟨⟨inner, after⟩, found, h⟩ := h
    obtain ⟨_, rfl⟩ : _ ∧ after = rest := by simpa using h
    have := ih found
    simp only [List.length_cons]
    omega
  | case3 s more _ _ =>
    obtain ⟨_, rfl⟩ : _ ∧ more = rest := by simpa using h
    simp
  | case4 s more _ _ ih =>
    simp only [Option.bind_eq_bind, Option.bind_eq_some_iff] at h
    obtain ⟨glyph, _, ⟨inner, after⟩, found, h⟩ := h
    obtain ⟨_, rfl⟩ : _ ∧ after = rest := by simpa using h
    exact Nat.lt_succ_of_lt (ih found)

theorem length_lt_of_doubleQuoted {text rest : List Spot} {glyphs : List Glyph}
    (h : doubleQuoted text = some (glyphs, rest)) : rest.length < text.length := by
  fun_induction doubleQuoted text generalizing glyphs with
  | case1 => simp at h
  | case2 s more _ =>
    obtain ⟨_, rfl⟩ : _ ∧ more = rest := by simpa using h
    simp
  | case3 => simp at h
  | case4 s more _ _ glyph after _ shorter ih =>
    obtain ⟨⟨inner, last⟩, found, h⟩ := Option.map_eq_some_iff.1 h
    obtain ⟨_, rfl⟩ := Prod.mk.inj h
    have inside := ih found
    dsimp only [List.length_cons] at inside ⊢
    omega
  | case5 => simp at h
  | case6 s more _ _ glyph _ ih =>
    obtain ⟨⟨inner, last⟩, found, h⟩ := Option.map_eq_some_iff.1 h
    obtain ⟨_, rfl⟩ := Prod.mk.inj h
    exact Nat.lt_succ_of_lt (ih found)

/-- Glyphs that are read but not yet written, since what follows decides what becomes of them. -/
inductive Waiting where
  | blanks (found : List Char)
  | breaks (first : Char) (more : List Char)
  | joined (found : List Char)

namespace Waiting

def nothing : Waiting := blanks []

def text : Waiting → List Char
  | blanks found => found
  | breaks first more => folded first more
  | joined found => found

/-- One more blank; after the end of a line it is dropped. -/
def blank (c : Char) : Waiting → Waiting
  | blanks found => blanks (found ++ [c])
  | waiting => waiting

/-- One more end of line; blanks before it are dropped. -/
def lineBreak (c : Char) : Waiting → Waiting
  | blanks _ => breaks c []
  | breaks first more => breaks first (more ++ [c])
  | joined found => joined (found ++ [c])

end Waiting

/-- The text that glyphs write, after those that wait. -/
def joinFrom (waiting : Waiting) : List Glyph → List Char
  | [] => waiting.text
  | .text c :: rest => waiting.text ++ c :: joinFrom .nothing rest
  | .blank c :: rest => joinFrom (waiting.blank c) rest
  | .lineBreak c :: rest => joinFrom (waiting.lineBreak c) rest
  | .joint :: rest => waiting.text ++ joinFrom (.joined []) rest

/-- The text that glyphs write. -/
def joinGlyphs (glyphs : List Glyph) : List Char := joinFrom .nothing glyphs

end PropertyGraph.Document
