import PropertyGraph.Language.Literal
import PropertyGraph.Query.Basic
import PropertyGraph.Text.Case
import PropertyGraph.Text.Word

/-!
Entries of the sections of a query: a name with what it is bound to. Conditions and aggregates are
written `name: value`; filters also `name OP value`, with one of the six operators.
-/

namespace PropertyGraph

open Text

namespace Aggregation

/-- An aggregate written as `FUNCTION(field)`. Only a count may leave the field out. -/
def read (text : List Char) : Except Fault Aggregation :=
  let (name, rest) := (strip text).span isWordChar
  match name, rest.dropWhile isBlank with
  | _ :: _, '(' :: inner =>
    match cut ')' inner with
    | (field, some []) =>
      match AggregateFunction.ofName? (String.ofList (upper name)) with
      | none => .error (.unknownFunction (String.ofList name))
      | some function =>
        if !(strip field).isEmpty then .ok ⟨function, some (String.ofList (strip field))⟩
        else if function = .count then .ok ⟨function, none⟩
        else .error (.fieldRequired function.name (String.ofList text))
    | _ => .error (.invalidComputation (String.ofList text))
  | _, _ => .error (.invalidComputation (String.ofList text))

end Aggregation

namespace Comparison

/-- A comparison by the first operator, in search order, that occurs in the text; equality if none
does. The literal is what follows the operator. -/
def read (text : List Char) : Except Fault Comparison :=
  let found? := ComparisonOp.inSearchOrder.findSome? fun op =>
    (cutAt op.symbol.toList text).map fun (_, after) => (op, after)
  let (op, literal) := found?.getD (.eq, text)
  return ⟨op, ← Literal.read literal⟩

end Comparison

namespace Entry

/-- The name and the text of an entry `name: text`, both stripped. -/
def split? (text : List Char) : Option (String × List Char) :=
  match cut ':' text with
  | (name, some value) =>
    if isFieldName (strip name) then some (String.ofList (strip name), strip value) else none
  | (_, none) => none

/-- The name of a filter `name OP value` and its comparison. The operator is the first, in search
order, that something precedes. -/
def splitAtOperator? (text : List Char) : Option (String × List Char) := do
  let before ← ComparisonOp.inSearchOrder.findSome? fun op => do
    let (before, _) ← cutAt op.symbol.toList text
    if before.isEmpty then none else some before
  if isFieldName (strip before) then
    some (String.ofList (strip before), text.drop before.length)
  else none

/-- The name and the comparison text of a filter. -/
def splitFilter? (text : List Char) : Option (String × List Char) :=
  split? text <|> splitAtOperator? text

/-- Add an entry of a section to the query. -/
def addTo (q : Query) (part : Section) (chunk : String) : Except Fault Query :=
  let text := chunk.toList
  match part with
  | .conditions =>
    match split? text with
    | none => .error (.malformedEntry part chunk)
    | some (name, value) => do
      return { q with conditions := q.conditions.insert name (← Literal.read value) }
  | .aggregations =>
    match split? text with
    | none => .error (.malformedEntry part chunk)
    | some (name, value) => do
      let aggregation ← Aggregation.read (Literal.dropTrailingComma value)
      return { q with aggregations := q.aggregations.insert name aggregation }
  | .filters =>
    match splitFilter? text with
    | none => .error (.malformedFilter chunk)
    | some (name, comparison) => do
      return { q with filters := q.filters.insert name (← Comparison.read comparison) }

end Entry

end PropertyGraph
