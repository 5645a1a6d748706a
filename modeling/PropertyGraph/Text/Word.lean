import PropertyGraph.Text.Ranges
import PropertyGraph.Text.Word.Table

/-!
The characters of words: letters and numbers of any script, and the underscore. Names of fields
may hold full stops too.
-/

namespace PropertyGraph.Text

/-- A letter, a number or an underscore. -/
def isWordChar (c : Char) : Bool :=
  if c.toNat < 128 then c.isAlphanum || c == '_' else within wordRanges c

/-- A non-empty text of word characters and full stops. -/
def isFieldName (text : List Char) : Bool :=
  !text.isEmpty && text.all fun c => isWordChar c || c == '.'

end PropertyGraph.Text
