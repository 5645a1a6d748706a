import PropertyGraph.Engine.Error
import PropertyGraph.Node

/-!
Aggregates over nodes. Null and absent properties are left out. Of no values the sum is zero, the
mean NaN, the least plus infinity and the greatest minus infinity; the mean divides by the number of
all nodes.
-/

namespace PropertyGraph

namespace Aggregation

/-- The property that is aggregated; null without a field. -/
def valueOf (a : Aggregation) (node : Node) : Value :=
  match a.field with
  | some name => node.property name
  | none => .null

/-- Add the value of a node to a sum. -/
def addValue (a : Aggregation) (total : Number) (node : Node) : Except ExecutionError Number :=
  let value := a.valueOf node
  if value.isNull then .ok total
  else
    match value.number? with
    | some n => (total.add n).mapError .arithmetic
    | none => .error (.notNumeric a node.key value)

def sum (a : Aggregation) (nodes : List Node) : Except ExecutionError Number :=
  nodes.foldlM a.addValue (.int 0)

def mean (a : Aggregation) (nodes : List Node) : Except ExecutionError Double := do
  let total ← a.sum nodes
  if nodes.isEmpty then return .nan
  else (total.divCount nodes.length).mapError .arithmetic

/-- The values that take part in a least or greatest. -/
def present (a : Aggregation) (nodes : List Node) : List Value :=
  (nodes.map a.valueOf).filter fun value => !value.isNull

/-- The better of the best value so far and a candidate, which must precede it in the order that
is `wanted`. -/
def better (a : Aggregation) (symbol : String) (wanted : Ordering) (best candidate : Value) :
    Except ExecutionError Value :=
  match candidate.relate best with
  | .error mismatch => .error (.incomparable a symbol mismatch)
  | .ok order? => .ok (if order? = some wanted then candidate else best)

/-- The first of the best values, or `ofNone` if there are none. -/
def extreme (a : Aggregation) (symbol : String) (wanted : Ordering) (ofNone : Double) :
    List Value → Except ExecutionError Value
  | [] => .ok (.float ofNone)
  | first :: rest => rest.foldlM (a.better symbol wanted) first

/-- The value of an aggregate. -/
def eval (a : Aggregation) (nodes : List Node) : Except ExecutionError Value :=
  match a.function with
  | .count => .ok (.int nodes.length)
  | .sum => do return .ofNumber (← a.sum nodes)
  | .avg => do return .float (← a.mean nodes)
  | .min => a.extreme "<" .lt (.infinite false) (a.present nodes)
  | .max => a.extreme ">" .gt (.infinite true) (a.present nodes)

/-- The values of named aggregates, in order, or the first failure. -/
def evalAll (nodes : List Node) :
    List (String × Aggregation) → Except ExecutionError (List (String × Value))
  | [] => .ok []
  | (name, a) :: rest => do return (name, ← a.eval nodes) :: (← evalAll nodes rest)

end Aggregation

end PropertyGraph
