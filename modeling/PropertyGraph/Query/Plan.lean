import PropertyGraph.Language.Literal
import PropertyGraph.Query.Basic

/-!
Plans and explanations of queries, for readers only: no query is executed by them. A plan estimates
the cost in milliseconds and notes what each clause does to it; an explanation lists the steps.
-/

namespace PropertyGraph

open Text

structure Plan where
  optimizations : List String
  estimate : Double

namespace Query

/-- The clause is active. -/
def isActive (clause : OrderedMap String α) : Bool := !clause.isEmpty

def milliseconds (n : Int) : Double := .ofInt n

/-- What a row costs where a limit bounds the rows. -/
def millisecondsPerRow : Double := .ofDecimal false 1 (-1)

/-- The estimate before the limit is considered. -/
def clauseEstimate (q : Query) : Double :=
  milliseconds (10 - (if isActive q.conditions then 5 else 0) +
    (if isActive q.aggregations then 2 else 0) + (if isActive q.filters then 1 else 0))

/-- The estimate, at least a millisecond; a limit too large for a binary64 number has none. -/
def estimate (q : Query) : Except ArithmeticError Double := do
  let bounded ← match q.limit with
    | none => pure q.clauseEstimate
    | some n =>
      let cost := (← (Number.int n).toDouble) * millisecondsPerRow
      pure (if cost < q.clauseEstimate then cost else q.clauseEstimate)
  return if bounded < milliseconds 1 then milliseconds 1 else bounded

def optimizations (q : Query) : List String :=
  (if isActive q.conditions then ["Using property indexes for WHERE clause"] else []) ++
    (if isActive q.aggregations then ["Aggregations computed in single pass"] else []) ++
    (if isActive q.filters then ["Applying filters after aggregation"] else []) ++
    (if q.limit.isSome then ["Limit applied early to reduce processing"] else [])

def plan (q : Query) : Except ArithmeticError Plan := do
  return ⟨q.optimizations, ← q.estimate⟩

/-- The entries of a clause, each in its form, with commas between. -/
def listEntries (form : String → α → List Char) (clause : OrderedMap String α) : List Char :=
  join ", ".toList (clause.entries.map fun entry => form entry.1 entry.2)

def explainCondition (key : String) (value : Value) : List Char :=
  key.toList ++ " = ".toList ++ Literal.write value

def explainAggregation (key : String) (a : Aggregation) : List Char :=
  key.toList ++ " = ".toList ++ a.function.name.toList ++ '(' :: (a.field.getD "").toList ++ [')']

def explainFilter (key : String) (c : Comparison) : List Char :=
  key.toList ++ ' ' :: c.op.symbol.toList ++ ' ' :: Literal.write c.value

/-- The steps of the execution, in order. -/
def steps (q : Query) : List (List Char) :=
  [q.operation.tag.toList ++ " from ".toList ++
      (if q.target = "" then "(all)" else q.target).toList] ++
    (if isActive q.conditions then
      ["Filter by: ".toList ++ listEntries explainCondition q.conditions] else []) ++
    (if isActive q.aggregations then
      ["Compute: ".toList ++ listEntries explainAggregation q.aggregations] else []) ++
    (if isActive q.filters then
      ["Apply filter: ".toList ++ listEntries explainFilter q.filters] else []) ++
    (q.sorting.toList.map fun s =>
      "Sort by ".toList ++ s.field.toList ++ ' ' :: s.order.name.toList) ++
    (q.limit.toList.map fun n => "Limit to ".toList ++ intDigits n ++ " results".toList)

/-- The query in plain words: its names, and its steps numbered from one. -/
def explain (q : Query) : String :=
  let numbered := q.steps.zipIdx.map fun (step, i) => natDigits (i + 1) ++ ". ".toList ++ step
  let lines := ["Query: ".toList ++ q.name.toList, "Intent: ".toList ++ q.intent.toList, [],
    "Execution Plan:".toList] ++ numbered
  String.ofList (join ['\n'] lines ++ ['\n'])

end Query

end PropertyGraph
