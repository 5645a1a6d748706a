import PropertyGraph.Query.Basic
import PropertyGraph.Value.Json

/-!
Queries as JSON trees. The key of a query is its canonical tree on one line: members sorted, dates
marked. Answers are cached under it.
-/

namespace PropertyGraph

namespace Query

/-- The entries of a clause in a style. -/
def clauseEntries (style : JsonStyle) (clause : OrderedMap String α) : List (String × α) :=
  if style.sortMembers then clause.entries.mergeSort fun a b => (compare a.1 b.1).isLE
  else clause.entries

/-- The members of an object in a style. -/
def object (style : JsonStyle) (members : List (String × Json)) : Json :=
  .object (if style.sortMembers then members.mergeSort fun a b => (compare a.1 b.1).isLE
    else members)

/-- A clause as an object; an empty clause has none. -/
def clauseToJson (style : JsonStyle) (name : String) (clause : OrderedMap String α)
    (entryToJson : α → Except JsonError Json) : Except JsonError (List (String × Json)) :=
  if clause.isEmpty then .ok []
  else do
    let members ← (clauseEntries style clause).mapM fun (key, entry) => do
      return (key, ← entryToJson entry)
    return [(name, .object members)]

/-- The limit as a member; a query without one has none. -/
def limitToJson : Option Int → Except JsonError (List (String × Json))
  | none => .ok []
  | some n => do return [("limit", .int (← writtenInt n))]

/-- The query as an object: the four names, then the clauses that are active. -/
def toJson (style : JsonStyle) (q : Query) : Except JsonError Json := do
  let aggregations ← clauseToJson style "compute" q.aggregations fun a =>
    .ok (object style
      [("function", .str a.function.name), ("field", (a.field.map Json.str).getD .null)])
  let filters ← clauseToJson style "filter" q.filters fun c => do
    return object style [("op", .str c.op.name), ("value", ← c.value.toJson style)]
  let limit ← limitToJson q.limit
  let conditions ← clauseToJson style "where" q.conditions (Value.toJson style)
  let sorting := q.sorting.toList.map fun s =>
    ("sort", object style [("field", .str s.field), ("order", .str s.order.name)])
  return object style ([("name", .str q.name), ("intent", .str q.intent),
    ("operation", .str q.operation.tag), ("target", .str q.target)] ++
    conditions ++ aggregations ++ filters ++ sorting ++ limit)

/-- The canonical text of the query. -/
def key (q : Query) : Except JsonError String := do
  return String.ofList (← q.toJson .canonical).compact

end Query

end PropertyGraph
