import PropertyGraph.Record.Measure
import PropertyGraph.Record.Schema

/-!
The validation with which the program is run. A value of the declared type is kept as it is. Others
are converted: bytes to the text that they encode, truth values, whole numbers and texts to numbers
of the declared type. In a choice of types a value stays what it is if that is one of them, and is
else converted to the first that it can be.
-/

namespace PropertyGraph

namespace Value

/-- The integer that stands for a value: one and zero for truth values, the number itself for a whole
one of 64 bits. -/
def whole? : Value → Option Int
  | .int n => some n
  | .bool b => some b.toNat
  | .float x =>
    let fits := Int64.minValue.toInt ≤ x.truncate && x.truncate ≤ Int64.maxValue.toInt
    if x.isWhole && fits then some x.truncate else none
  | v => v.text?.bind fun s => (Numeral.integer s.toList).toOption

/-- The truth value that stands for a value. -/
def truth? : Value → Option Bool
  | .bool b => some b
  | v =>
    match v.text? with
    | some s =>
      let word := String.ofList (s.toList.map Char.toLower)
      if word ∈ ["1", "true", "t", "yes", "y", "on"] then some true
      else if word ∈ ["0", "false", "f", "no", "n", "off"] then some false
      else none
    | none => v.whole?.bind fun n => if n = 1 then some true else if n = 0 then some false else none

/-- The value converted to a type. -/
def convert? (v : Value) : ScalarType → Option Value
  | .bool => v.truth?.map .bool
  | .int => v.whole?.map .int
  | .float => (Measure.ofValue v).map .float
  | .str => v.text?.map .str
  | .dateTime | .date => none

/-- The value as one of several types. -/
def choose? (members : List ScalarType) (v : Value) : Option Value :=
  if v.scalarType?.any (· ∈ members) then some v else members.findSome? v.convert?

def items? : Value → Option (List Value)
  | .list items | .tuple items => some items
  | _ => none

def entries? : Value → Option (List (Value × Value))
  | .dict entries => some entries
  | _ => none

end Value

namespace Checked

/-- Check a value that may be null. -/
def nullable (check : Value → Checked α) : Value → Checked (Option α)
  | .null => .accepted none
  | v => some <$> check v

/-- Check the elements of a list. -/
def listOf (check : Value → Checked α) (v : Value) : Checked (List α) :=
  match v.items? with
  | some items => all check items
  | none => .refused [⟨[]⟩]

/-- Check one entry of a mapping: its key must be a text. -/
def entry (check : Value → Checked α) (entry : Value × Value) : Checked (String × α) :=
  within (.key entry.1) (Prod.mk <$> ofOption entry.1.text? <*> check entry.2)

def entries (check : Value → Checked α) : List (Value × Value) → Checked (List (String × α))
  | [] => .accepted []
  | first :: rest => List.cons <$> entry check first <*> entries check rest

/-- Check the entries of a mapping. -/
def mappingOf (check : Value → Checked α) (v : Value) : Checked (OrderedMap String α) :=
  match v.entries? with
  | some found => OrderedMap.ofList <$> entries check found
  | none => .refused [⟨[]⟩]

/-- Check a field that must be present. -/
def required (found : List (Value × Value)) (name : String) (check : Value → Checked α) :
    Checked α :=
  within (.field name) <|
    match Value.field? found name with
    | some v => check v
    | none => .refused [⟨[]⟩]

/-- Check a field that takes a default if it is missing. -/
def optional (found : List (Value × Value)) (name : String) (default : α)
    (check : Value → Checked α) : Checked α :=
  within (.field name) <|
    match Value.field? found name with
    | some v => check v
    | none => .accepted default

end Checked

open Checked

mutual

/-- Check a value against a schema. -/
def Schema.check : {α : Type} → Schema α → Value → Checked α
  | _, .text minLength, v => ofOption (v.text?.filter (minLength ≤ ·.length))
  | _, .float, v => ofOption (Measure.ofValue v)
  | _, .union members, v => ofOption (v.choose? members)
  | _, .nullable type, v => nullable type.check v
  | _, .list type, v => listOf type.check v
  | _, .mapping type, v => mappingOf type.check v
  | _, .model fields, v =>
    match v.entries? with
    | some found => fields.check found
    | none => .refused [⟨[]⟩]

/-- Check the fields of a mapping. -/
def Fields.check : {α : Type} → Fields α → List (Value × Value) → Checked α
  | _, .nil, _ => .accepted ()
  | _, .required name type rest, found =>
    Prod.mk <$> required found name type.check <*> rest.check found
  | _, .optional name type default rest, found =>
    Prod.mk <$> optional found name default type.check <*> rest.check found

end

instance Validation.lax : Validation where
  validate := Schema.check

end PropertyGraph
