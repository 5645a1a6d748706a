import PropertyGraph.Engine.Aggregate
import PropertyGraph.RunSort.Basic
import PropertyGraph.Store.Traversal
import PropertyGraph.Text.Blank

/-!
What a query means on a store: nodes are selected, filtered, sorted and limited, and then shown as
rows or collapsed into one summary. `Store.evaluate` keeps no answers and changes nothing.
-/

namespace PropertyGraph

/-- A node as it is shown in an answer. -/
structure Row where
  id : Value
  type : String
  properties : OrderedMap String Value

inductive Answer where
  | rows (found : List Row)
  | summary (columns : OrderedMap String Value)

/-- The number of rows of an answer. -/
def Answer.count : Answer → Nat
  | .rows found => found.length
  | .summary _ => 1

def Node.toRow (node : Node) : Row := ⟨node.id, node.type, node.properties⟩

/-- The node has every property at the value that the conditions name. -/
def Node.meets (node : Node) (conditions : OrderedMap String Value) : Bool :=
  conditions.entries.all fun condition =>
    (node.properties.get? condition.1).any fun value => value.same condition.2

/-- Every comparison holds of the node's properties. -/
def Node.passes (node : Node) (filters : OrderedMap String Comparison) : Bool :=
  filters.entries.all fun filter => filter.2.holds (node.properties.get? filter.1)

namespace Sorting

/-- The first node is sorted before the second. Values that have no order are ties. -/
def precedes (s : Sorting) (a b : Node) : Bool :=
  match s.order with
  | .asc => (a.property s.field).less (b.property s.field)
  | .desc => (a.property s.field).greater (b.property s.field)

def sort (s : Sorting) (nodes : List Node) : List Node :=
  RunSort.sort s.precedes nodes

end Sorting

/-- The first elements, as many as the limit says; a negative limit leaves so many out at the
end. -/
def takeLimit (limit : Int) (elements : List α) : List α :=
  if limit < 0 then elements.take (elements.length - limit.natAbs)
  else elements.take limit.natAbs

namespace Query

/-- The relationships that a path names. -/
def relationships : Value → Except ExecutionError (List String)
  | .str path =>
    .ok (((Text.pieces (· == ',') path.toList).map Text.strip).filter (!·.isEmpty)
      |>.map String.ofList)
  | .tuple parts => .ok (parts.map fun part => String.ofList part.plain)
  | .list parts => .ok (parts.map fun part => String.ofList part.plain)
  | value => .error (.invalidPath value)

/-- The number of steps that a depth allows. -/
def stepCount : Value → Except ExecutionError Nat
  | .int n => if n < 0 then .error (.invalidDepth (.int n)) else .ok n.natAbs
  | value => .error (.invalidDepth value)

/-- The start of a traversal; null and the empty text name none. -/
def start? (q : Query) : Option Value :=
  match q.conditions.get? "start" with
  | none => none
  | some .null => none
  | some (.str "") => none
  | some value => some value

/-- The nodes that a fetch selects: those of its target that meet the conditions. -/
def fetch (q : Query) (store : Store) : List Node :=
  (store.nodesOfType q.target).filter fun node => node.meets q.conditions

/-- The nodes that a traversal selects. Its conditions are its parameters. -/
def walk (q : Query) (store : Store) (defaultDepth : Int) : Except ExecutionError (List Node) :=
  match q.start? with
  | none => .error .missingStart
  | some start => do
    let path ← relationships ((q.conditions.get? "path").getD (.tuple []))
    let depth ← stepCount ((q.conditions.get? "depth").getD (.int defaultDepth))
    return Traversal.reach store.nodes start.canonicalId path depth

/-- The nodes that the operation of a query selects. -/
def select (q : Query) (store : Store) (defaultDepth : Int) : Except ExecutionError (List Node) :=
  if q.operation = .fetch then .ok (q.fetch store)
  else if q.operation = .traverse then q.walk store defaultDepth
  else .error (.unsupportedOperation q.operation)

/-- The selected nodes, filtered, sorted and limited. -/
def arrange (q : Query) (nodes : List Node) : List Node :=
  let filtered := nodes.filter fun node => node.passes q.filters
  let sorted := q.sorting.elim filtered fun s => s.sort filtered
  q.limit.elim sorted fun n => takeLimit n sorted

/-- The answer over the arranged nodes. -/
def present (q : Query) (nodes : List Node) : Except ExecutionError Answer :=
  if q.aggregations.isEmpty then .ok (.rows (nodes.map Node.toRow))
  else do
    return .summary (.ofList (← Aggregation.evalAll nodes q.aggregations.entries))

end Query

/-- The answer to a query. -/
def Store.evaluate (store : Store) (defaultDepth : Int) (q : Query) :
    Except ExecutionError Answer := do
  q.present (q.arrange (← q.select store defaultDepth))

end PropertyGraph
