import PropertyGraph.OrderedMap

/-!
Secondary indexes: for each key the identities filed under it, in the order in which they were
filed. A key under which nothing is left has no entry.
-/

namespace PropertyGraph

/-- The identities filed under each key. -/
abbrev Index (κ : Type u) := OrderedMap κ (List String)

namespace Index

variable {κ : Type u} [DecidableEq κ]

/-- The identities filed under a key. -/
def idsOf (index : Index κ) (key : κ) : List String := (index.get? key).getD []

/-- File an identity under a key, after the others; one that is filed already keeps its place. -/
def file (index : Index κ) (key : κ) (id : String) : Index κ :=
  if id ∈ index.idsOf key then index else index.insert key (index.idsOf key ++ [id])

/-- Take an identity from under a key. -/
def unfile (index : Index κ) (key : κ) (id : String) : Index κ :=
  let rest := (index.idsOf key).filter (· ≠ id)
  if rest.isEmpty then index.erase key else index.insert key rest

/-- File an identity under each of the keys. -/
def fileAll (index : Index κ) (entries : List (κ × String)) : Index κ :=
  entries.foldl (fun index entry => index.file entry.1 entry.2) index

/-- Take away the filings of a list. -/
def unfileAll (index : Index κ) (entries : List (κ × String)) : Index κ :=
  entries.foldl (fun index entry => index.unfile entry.1 entry.2) index

@[simp] theorem idsOf_empty (key : κ) : (∅ : Index κ).idsOf key = [] := rfl

theorem idsOf_insert (index : Index κ) (key other : κ) (ids : List String) :
    idsOf (OrderedMap.insert index key ids) other =
      if key = other then ids else index.idsOf other := by
  unfold idsOf
  rw [OrderedMap.get?_insert]
  split <;> rfl

theorem idsOf_erase (index : Index κ) (key other : κ) :
    idsOf (OrderedMap.erase index key) other =
      if key = other then [] else index.idsOf other := by
  unfold idsOf
  rw [OrderedMap.get?_erase]
  split <;> rfl

@[simp] theorem idsOf_file (index : Index κ) (key other : κ) (id : String) :
    (index.file key id).idsOf other =
      if key = other ∧ id ∉ index.idsOf key then index.idsOf key ++ [id]
      else index.idsOf other := by
  unfold file
  split
  · next h => simp [h]
  · next h => simp [h, idsOf_insert]

@[simp] theorem idsOf_unfile (index : Index κ) (key other : κ) (id : String) :
    (index.unfile key id).idsOf other =
      if key = other then (index.idsOf key).filter (· ≠ id) else index.idsOf other := by
  unfold unfile
  simp only
  split
  · next h => rw [idsOf_erase, List.isEmpty_iff.1 h]
  · rw [idsOf_insert]

end Index

end PropertyGraph
