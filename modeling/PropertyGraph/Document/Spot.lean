import PropertyGraph.Text.Ranges

/-!
The characters of a document with their places. Documents are laid out in lines and columns, and
what a character means can depend on where it stands.
-/

namespace PropertyGraph.Document

/-- Where a character stands: its line, its column and the number of characters before it. -/
structure Mark where
  line : Nat
  column : Nat
  index : Nat
  deriving DecidableEq

structure Spot where
  char : Char
  mark : Mark
  deriving DecidableEq

/-- The character ends a line. -/
def isBreak (c : Char) : Bool :=
  c == '\n' || c == '\x85' || c == '\u2028' || c == '\u2029'

/-- The character stands between words. -/
def isGap (c : Char) : Bool := c == ' ' || c == '\t' || isBreak c

/-- The mark that may open a text and takes no column. -/
def orderMark : Char := '\ufeff'

/-- The place after a character. -/
def Mark.after (mark : Mark) (c : Char) : Mark :=
  if isBreak c then ⟨mark.line + 1, 0, mark.index + 1⟩
  else ⟨mark.line, if c = orderMark then mark.column else mark.column + 1, mark.index + 1⟩

/-- The characters of a text, the first one at a place. -/
def spotsFrom (mark : Mark) : List Char → List Spot
  | [] => []
  | c :: rest => ⟨c, mark⟩ :: spotsFrom (mark.after c) rest

/-- The characters of a text. An order mark that opens it is left out. -/
def spots (text : List Char) : List Spot :=
  match spotsFrom ⟨0, 0, 0⟩ text with
  | first :: rest => if first.char = orderMark then rest else first :: rest
  | [] => []

/-- The next character, if there is one, satisfies `p`. -/
def nextIs (p : Char → Bool) (text : List Spot) : Bool := text.head?.any fun s => p s.char

/-- A word ends here: the text ends or a gap follows. -/
def atGap (text : List Spot) : Bool := text.head?.all fun s => isGap s.char

/-- Three hyphens or three points, at the start of a line and followed by a gap, separate
documents. -/
def atSeparator (text : List Spot) : Bool :=
  let front := (text.take 3).map Spot.char
  (front == ['-', '-', '-'] || front == ['.', '.', '.']) && atGap (text.drop 3)

/-- What a break of a line is written as: a next line mark counts as a newline. -/
def breakChar (c : Char) : Char := if c = '\x85' then '\n' else c

/-- What a break and further ones after it become within a scalar: one newline becomes a blank,
and of several the first is dropped. -/
def folded (first : Char) (more : List Char) : List Char :=
  if first ≠ '\n' then first :: more
  else if more.isEmpty then [' ']
  else more

/-- The characters that a document may hold. -/
def allowedRanges : List (Nat × Nat) := [
    (0x9, 0xA), (0x20, 0x7E), (0x85, 0x85), (0xA0, 0xD7FF), (0xE000, 0xFFFD),
    (0x10000, 0x10FFFF)]

def isAllowed (c : Char) : Bool := Text.within allowedRanges c

end PropertyGraph.Document
