import PropertyGraph.Query.Basic
import PropertyGraph.Value.Json
import PropertyGraph.Value.Text

/-!
Why a query is not answered. The first four causes are failures of the request, reported to whoever
made it; the last two are not reported as such.
-/

namespace PropertyGraph

inductive ExecutionError where
  | missingStart
  | unsupportedOperation (operation : Operation)
  | invalidPath (value : Value)
  | invalidDepth (value : Value)
  | notNumeric (aggregation : Aggregation) (node : String) (value : Value)
  | incomparable (aggregation : Aggregation) (symbol : String) (mismatch : Value.Mismatch)
  | arithmetic (e : ArithmeticError)
  | noKey (e : JsonError)

/-- An aggregate as it was asked for; an absent field shows as `None`. -/
def Aggregation.text (a : Aggregation) : String :=
  a.function.name ++ "(" ++ a.field.getD "None" ++ ")"

namespace ExecutionError

def message : ExecutionError → String
  | missingStart => "GRAPH_TRAVERSE requires start node"
  | unsupportedOperation operation => "Unsupported operation: " ++ operation.tag
  | invalidPath value =>
    "GRAPH_TRAVERSE path must be a relationship list or comma-separated string, got " ++
      String.ofList value.shown
  | invalidDepth value =>
    "GRAPH_TRAVERSE depth must be a non-negative integer, got " ++ String.ofList value.shown
  | notNumeric aggregation node value =>
    aggregation.text ++ " needs numeric values, node " ++ node ++ " has " ++
      String.ofList value.shown
  | incomparable aggregation symbol mismatch =>
    aggregation.text ++ " over incomparable values: " ++ mismatch.message symbol
  | arithmetic e => e.message
  | noKey e => e.message

/-- The name under which the failure of a request is reported. -/
def typeName? : ExecutionError → Option String
  | missingStart => some "MissingParameterError"
  | unsupportedOperation _ => some "UnsupportedOperationError"
  | invalidPath _ | invalidDepth _ => some "ExecutionError"
  | notNumeric .. | incomparable .. => some "ComputeFieldError"
  | arithmetic _ | noKey _ => none

end ExecutionError

end PropertyGraph
