import PropertyGraph.Language.Error
import PropertyGraph.Text.Blank

/-!
Tokens of a query text: braces, and the stripped texts between them. A text ends at a brace or at
the end of its line. Braces within quotation marks are text; quotation marks must be closed on
their line, so each line is read on its own.
-/

namespace PropertyGraph

inductive Lexeme where
  | text (chunk : String)
  | opening
  | closing
  deriving DecidableEq

namespace Lexeme

/-- The lexeme as it stands in the text. -/
def spelling : Lexeme → String
  | text chunk => chunk
  | opening => "\x7b"
  | closing => "\x7d"

end Lexeme

structure Token where
  lexeme : Lexeme
  line : Nat
  deriving DecidableEq

namespace Token

/-- The text lexeme of a chunk; blanks alone make none. -/
def ofChunk (chunk : List Char) : List Lexeme :=
  if (Text.strip chunk).isEmpty then [] else [.text (String.ofList (Text.strip chunk))]

/-- The lexemes of a line, of which `chunk` (last character first) is read but not yet ended;
none if a quotation mark is not closed. -/
def scan (insideQuotes : Bool) (chunk : List Char) : List Char → Option (List Lexeme)
  | [] => if insideQuotes then none else some (ofChunk chunk.reverse)
  | c :: rest =>
    if c = '"' then scan (!insideQuotes) (c :: chunk) rest
    else if insideQuotes then scan true (c :: chunk) rest
    else if c = '\x7b' then
      (scan false [] rest).map fun more => ofChunk chunk.reverse ++ .opening :: more
    else if c = '\x7d' then
      (scan false [] rest).map fun more => ofChunk chunk.reverse ++ .closing :: more
    else scan false (c :: chunk) rest

/-- The lexemes of one line. -/
def ofLine (line : List Char) : Option (List Lexeme) := scan false [] line

/-- The tokens of lines, the first of which has the given number. -/
def ofLines (number : Nat) : List (List Char) → Except TextError (List Token)
  | [] => .ok []
  | line :: rest =>
    match ofLine line with
    | none => .error ⟨.unterminatedString, some number⟩
    | some lexemes => do
      let more ← ofLines (number + 1) rest
      return lexemes.map (⟨·, number⟩) ++ more

/-- The tokens of a text, or the first line on which a quotation mark is not closed. -/
def ofText (text : List Char) : Except TextError (List Token) :=
  ofLines 1 (Text.pieces (· == '\n') text)

end Token

end PropertyGraph
