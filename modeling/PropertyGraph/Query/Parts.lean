import PropertyGraph.Query.Basic

/-!
Queries as they are put together. The operation is given by any of its names, a clause may be given
without entries, and any value may stand as the limit. Equality and what is hashed do not ask for
more; the engine takes limits that are integers, and truth values as one and zero.
-/

namespace PropertyGraph

/-- The integer that a value stands for; a truth value stands for one or zero. -/
def Value.integer? : Value → Option Int
  | .int n => some n
  | .bool b => some b.toNat
  | _ => none

namespace Query

/-- What a query is put together from. -/
structure Parts where
  name : String := ""
  intent : String := ""
  operation : String := Operation.fetch.tag
  target : String := ""
  conditions : Option (OrderedMap String Value) := none
  aggregations : Option (OrderedMap String Aggregation) := none
  filters : Option (OrderedMap String Comparison) := none
  sorting : Option Sorting := none
  limit : Option Value := none

/-- Both limits are absent, or they are equal values. -/
def equalLimits : Option Value → Option Value → Bool
  | none, none => true
  | some v, some w => v.equal w
  | _, _ => false

namespace Parts

/-- The query without its limit. -/
def unlimited (parts : Parts) : Query where
  name := parts.name
  intent := parts.intent
  operation := .named parts.operation
  target := parts.target
  conditions := parts.conditions.getD ∅
  aggregations := parts.aggregations.getD ∅
  filters := parts.filters.getD ∅
  sorting := parts.sorting

/-- The query, if its limit is one that the engine takes. -/
def query? (parts : Parts) : Option Query :=
  match parts.limit with
  | none => some parts.unlimited
  | some limit => limit.integer?.map fun n => { parts.unlimited with limit := some n }

def equal (a b : Parts) : Bool :=
  a.unlimited.equal b.unlimited && equalLimits a.limit b.limit

/-- The same is hashed of both: what is hashed but for the limit, and an equal limit. -/
def hashesLike (a b : Parts) : Bool :=
  a.unlimited.fingerprint = b.unlimited.fingerprint && equalLimits a.limit b.limit

end Parts

end Query

end PropertyGraph
