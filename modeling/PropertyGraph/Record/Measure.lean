import PropertyGraph.Number.Numeral
import PropertyGraph.Value.Basic

/-!
Weights and coordinates of records. They are binary64 numbers, written as numbers, truth values or
texts. A text is a decimal, an infinity or a NaN in ASCII; single underscores within it are dropped
if it cannot be read with them.
-/

namespace PropertyGraph

/-- The text that a value is or encodes. -/
def Value.text? : Value → Option String
  | .str s => some s
  | .bytes data => String.fromUTF8? ⟨data.toArray⟩
  | _ => none

namespace Measure

/-- A number that is written in ASCII without blanks and underscores. -/
def ofAscii (text : List Char) : Option Double :=
  if text.all fun c => 32 < c.toNat && c.toNat < 127 && c != '_' then Numeral.double text
  else none

/-- The text holds an underscore, none at an end and no two together. -/
def hasLoneUnderscores (text : List Char) : Bool :=
  text.contains '_' && text.head? != some '_' && text.getLast? != some '_' &&
    (text.zip text.tail).all (· != ('_', '_'))

def ofText (text : List Char) : Option Double :=
  (ofAscii (Numeral.trim text)).orElse fun _ =>
    if hasLoneUnderscores text then ofAscii (text.filter (· != '_')) else none

/-- The measure that a value writes. Integers too large for binary64 write none. -/
def ofValue (v : Value) : Option Double :=
  match v.text? with
  | some s => ofText s.toList
  | none => v.numeric?.bind fun n => n.toDouble.toOption

@[simp] theorem ofValue_float (x : Double) : ofValue (.float x) = some x := rfl

end Measure

end PropertyGraph
