import PropertyGraph.Engine.Basic
import PropertyGraph.Query.Plan

/-!
Answers, plans and nodes as JSON trees.
-/

namespace PropertyGraph

/-- The columns of a row or summary. -/
def columnsToJson (columns : OrderedMap String Value) : Except JsonError Json := do
  let members ← columns.entries.mapM fun (name, value) => do
    return (name, ← value.toJson .plain)
  return .object members

def Row.toJson (row : Row) : Except JsonError Json := do
  return .object [("id", ← row.id.toJson .plain), ("type", .str row.type),
    ("properties", ← columnsToJson row.properties)]

def Answer.toJson : Answer → Except JsonError Json
  | .rows found => do return .array (← found.mapM Row.toJson)
  | .summary columns => do return .array [← columnsToJson columns]

/-- Nodes as an answer shows them. -/
def Answer.ofNodes (nodes : List Node) : Answer := .rows (nodes.map Node.toRow)

/-- A plan with the query that it is for. -/
def Plan.toJson (plan : Plan) (q : Query) : Except JsonError Json := do
  return .object [("query", ← q.toJson .plain),
    ("optimizations", .array (plan.optimizations.map .str)),
    ("estimated_time_ms", .float plan.estimate)]

end PropertyGraph
