import PropertyGraph.Text.Ranges
import PropertyGraph.Text.Case.Table

/-!
Capital and small letters by the full case mappings of Unicode 14: a letter may become several
(`ß` becomes `SS`), and a capital sigma at the end of a word becomes `ς`.
-/

namespace PropertyGraph.Text

/-- The image of a code point under the first run that holds it. -/
def mapByRuns (runs : List CaseRun) (n : Nat) : Nat :=
  match runs.find? fun run =>
      run.first ≤ n && n ≤ run.last && (n - run.first) % run.step == 0 with
  | some run => run.target + (n - run.first)
  | none => n

/-- The capital form of one character. -/
def upperChar (c : Char) : List Char :=
  if c.toNat < 128 then [c.toUpper]
  else
    match upperExpansions.lookup c.toNat with
    | some letters => letters.map Char.ofNat
    | none => [Char.ofNat (mapByRuns upperRuns c.toNat)]

/-- The text in capital letters. -/
def upper (text : List Char) : List Char := text.flatMap upperChar

/-- A character with case stands next, once those that a sigma looks past are skipped. -/
def casedNext (text : List Char) : Bool :=
  match text.dropWhile (within caseIgnorableRanges) with
  | c :: _ => within casedRanges c
  | [] => false

/-- The small form of one character, between what precedes it (nearest first) and what follows. -/
def lowerChar (before : List Char) (c : Char) (after : List Char) : List Char :=
  if c.toNat < 128 then [c.toLower]
  else if c = 'Σ' then [if casedNext before && !casedNext after then 'ς' else 'σ']
  else if c = 'İ' then ['i', Char.ofNat 0x307]
  else [Char.ofNat (mapByRuns lowerRuns c.toNat)]

/-- The small form of a text that follows `before`, given nearest character first. -/
def lowerFrom (before : List Char) : List Char → List Char
  | [] => []
  | c :: after => lowerChar before c after ++ lowerFrom (c :: before) after

/-- The text in small letters. -/
def lower (text : List Char) : List Char := lowerFrom [] text

end PropertyGraph.Text
