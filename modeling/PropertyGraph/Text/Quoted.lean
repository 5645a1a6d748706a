import PropertyGraph.Text.Digit
import PropertyGraph.Text.Printable

/-!
Texts as messages quote them. Apostrophes enclose the text, or quotation marks where it holds an
apostrophe and no quotation mark; the enclosing mark, backslashes and unprintable characters are
escaped.
-/

namespace PropertyGraph.Text

/-- A digit of base sixteen, in small letters. -/
def hexDigit (n : Nat) : Char :=
  if n < 10 then digitChar n else Char.ofNat ('a'.toNat + (n - 10))

/-- The number in base sixteen, in exactly `width` digits, the highest lost if it has more. -/
def hexDigits : Nat → Nat → List Char
  | 0, _ => []
  | width + 1, n => hexDigits width (n / 16) ++ [hexDigit (n % 16)]

/-- The mark that encloses a quoted text. -/
def enclosingMark (text : List Char) : Char :=
  if text.contains '\'' && !text.contains '"' then '"' else '\''

/-- One character within a quoted text. -/
def quotedChar (mark c : Char) : List Char :=
  if c = mark ∨ c = '\\' then ['\\', c]
  else if c = '\n' then ['\\', 'n']
  else if c = '\r' then ['\\', 'r']
  else if c = '\t' then ['\\', 't']
  else if isPrintable c then [c]
  else if c.toNat < 0x100 then '\\' :: 'x' :: hexDigits 2 c.toNat
  else if c.toNat < 0x10000 then '\\' :: 'u' :: hexDigits 4 c.toNat
  else '\\' :: 'U' :: hexDigits 8 c.toNat

/-- The text between marks, escaped. -/
def quoted (text : List Char) : List Char :=
  enclosingMark text :: text.flatMap (quotedChar (enclosingMark text)) ++ [enclosingMark text]

end PropertyGraph.Text
