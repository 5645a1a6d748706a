import PropertyGraph.OrderedMap
import PropertyGraph.Query.Comparison
import PropertyGraph.Query.Operation

/-!
Compiled queries. A clause is a map in the order in which its entries were written; an empty clause
is an absent one.

Two queries are equal if their clauses bind the same keys to equal values, in whatever order. The
fingerprint of a query leaves clause values out: equal queries have one fingerprint.
-/

namespace PropertyGraph

inductive AggregateFunction where
  | count | sum | avg | min | max
  deriving DecidableEq

namespace AggregateFunction

def name : AggregateFunction → String
  | count => "COUNT"
  | sum => "SUM"
  | avg => "AVG"
  | min => "MIN"
  | max => "MAX"

def ofName? (name : String) : Option AggregateFunction :=
  [count, sum, avg, min, max].find? (·.name == name)

end AggregateFunction

/-- An aggregate over a field; counting needs none. -/
structure Aggregation where
  function : AggregateFunction
  field : Option String := none
  deriving DecidableEq

inductive SortOrder where
  | asc | desc
  deriving DecidableEq

namespace SortOrder

def name : SortOrder → String
  | asc => "ASC"
  | desc => "DESC"

def ofName? (name : String) : Option SortOrder :=
  [asc, desc].find? (·.name == name)

end SortOrder

structure Sorting where
  field : String
  order : SortOrder := .asc
  deriving DecidableEq

structure Query where
  name : String := ""
  intent : String := ""
  operation : Operation := .fetch
  target : String := ""
  /-- Properties that nodes must have, or the parameters of a traversal. -/
  conditions : OrderedMap String Value := ∅
  aggregations : OrderedMap String Aggregation := ∅
  filters : OrderedMap String Comparison := ∅
  sorting : Option Sorting := none
  limit : Option Int := none
  deriving Inhabited

/-- The two maps bind the same keys, to values that `eq` accepts. -/
def OrderedMap.equalBy [DecidableEq κ] (eq : α → α → Bool) (a b : OrderedMap κ α) : Bool :=
  a.size == b.size && a.entries.all fun entry => (b.get? entry.1).any (eq entry.2)

def Comparison.equal (a b : Comparison) : Bool :=
  a.op = b.op && a.value.equal b.value

/-- What is hashed of a query: the names, the sorted keys of the clauses, order and limit. -/
structure QueryFingerprint where
  name : String
  intent : String
  operation : Operation
  target : String
  conditionKeys : List String
  aggregationKeys : List String
  filterKeys : List String
  sorting : Option Sorting
  limit : Option Int
  deriving DecidableEq

namespace Query

def equal (a b : Query) : Bool :=
  a.name = b.name && a.intent = b.intent && a.operation = b.operation && a.target = b.target &&
    a.conditions.equalBy Value.equal b.conditions &&
    a.aggregations.equalBy (fun x y => x = y) b.aggregations &&
    a.filters.equalBy Comparison.equal b.filters &&
    a.sorting = b.sorting && a.limit = b.limit

/-- Texts in the order of their code points. -/
def sortedTexts (texts : List String) : List String :=
  texts.mergeSort fun s t => (compare s t).isLE

def fingerprint (q : Query) : QueryFingerprint where
  name := q.name
  intent := q.intent
  operation := q.operation
  target := q.target
  conditionKeys := sortedTexts q.conditions.keys
  aggregationKeys := sortedTexts q.aggregations.keys
  filterKeys := sortedTexts q.filters.keys
  sorting := q.sorting
  limit := q.limit

end Query

end PropertyGraph
