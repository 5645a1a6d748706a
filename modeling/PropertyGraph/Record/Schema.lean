import PropertyGraph.OrderedMap
import PropertyGraph.Record.Checked

/-!
Declared types. A schema says of what type each part of a record is, and by that what a value of the
part is kept as. How values are validated against schemas is a parameter: which conversions there
are, and what is reported of a value that has none, is no matter of the records that are declared.
-/

namespace PropertyGraph

/-- The types of scalars. -/
inductive ScalarType where
  | bool
  | int
  | float
  | str
  | dateTime
  | date
  deriving DecidableEq

/-- The type that a scalar has exactly: a truth value is no integer, and a date with a time is no
date. -/
def Value.scalarType? : Value → Option ScalarType
  | .bool _ => some .bool
  | .int _ => some .int
  | .float _ => some .float
  | .str _ => some .str
  | .dateTime _ => some .dateTime
  | .date _ => some .date
  | .null | .bytes _ | .tuple _ | .list _ | .dict _ => none

mutual

/-- A declared type, with what its values are kept as. -/
inductive Schema : Type → Type 1 where
  /-- A text of at least so many characters. -/
  | text (minLength : Nat) : Schema String
  | float : Schema Double
  /-- A scalar of one of the types. -/
  | union (members : List ScalarType) : Schema Value
  /-- A value of the type, or null. -/
  | nullable {α : Type} (type : Schema α) : Schema (Option α)
  | list {α : Type} (type : Schema α) : Schema (List α)
  /-- A mapping of texts to values of the type. -/
  | mapping {α : Type} (type : Schema α) : Schema (OrderedMap String α)
  /-- A mapping with fields. -/
  | model {α : Type} (fields : Fields α) : Schema α

/-- The fields of a mapping, kept one after the other. Other fields are ignored. -/
inductive Fields : Type → Type 1 where
  | nil : Fields Unit
  | required {α β : Type} (name : String) (type : Schema α) (rest : Fields β) : Fields (α × β)
  /-- A field that takes a default if it is missing. -/
  | optional {α β : Type} (name : String) (type : Schema α) (default : α) (rest : Fields β) :
    Fields (α × β)

end

/-- How values are validated. -/
class Validation where
  validate {α : Type} : Schema α → Value → Checked α

end PropertyGraph
