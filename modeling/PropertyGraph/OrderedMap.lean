/-!
Maps that remember the order in which their keys were first bound. Binding a key again keeps its
place; a key that was erased and is bound anew goes to the end.
-/

namespace PropertyGraph

/-- A list of bindings, no two of one key. -/
structure OrderedMap (κ : Type u) (α : Type v) where
  entries : List (κ × α)
  distinct : (entries.map Prod.fst).Nodup

namespace OrderedMap

variable {κ : Type u} {α : Type v}

instance [DecidableEq κ] [DecidableEq α] : DecidableEq (OrderedMap κ α) := fun a b =>
  if h : a.entries = b.entries then
    isTrue (by cases a; cases b; cases h; rfl)
  else
    isFalse fun e => h (congrArg entries e)

def empty : OrderedMap κ α := ⟨[], List.nodup_nil⟩

instance : EmptyCollection (OrderedMap κ α) := ⟨empty⟩
instance : Inhabited (OrderedMap κ α) := ⟨empty⟩

def keys (map : OrderedMap κ α) : List κ := map.entries.map Prod.fst

def values (map : OrderedMap κ α) : List α := map.entries.map Prod.snd

def size (map : OrderedMap κ α) : Nat := map.entries.length

def isEmpty (map : OrderedMap κ α) : Bool := map.entries.isEmpty

@[simp] theorem entries_empty : (∅ : OrderedMap κ α).entries = [] := rfl

variable [DecidableEq κ]

def get? (map : OrderedMap κ α) (key : κ) : Option α :=
  (map.entries.find? (·.1 = key)).map Prod.snd

def contains (map : OrderedMap κ α) (key : κ) : Bool :=
  map.entries.any (·.1 = key)

/-- The bindings with `key` bound to `value`, in its old place if it has one. -/
def bind (key : κ) (value : α) : List (κ × α) → List (κ × α)
  | [] => [(key, value)]
  | entry :: rest => if entry.1 = key then (key, value) :: rest else entry :: bind key value rest

theorem keys_bind (key : κ) (value : α) (entries : List (κ × α)) :
    (bind key value entries).map Prod.fst =
      if key ∈ entries.map Prod.fst then entries.map Prod.fst
      else entries.map Prod.fst ++ [key] := by
  induction entries with
  | nil => simp [bind]
  | cons entry rest ih =>
    rw [bind]
    by_cases h : entry.1 = key
    · simp [h]
    · have h' : key ≠ entry.1 := fun e => h e.symm
      simp only [if_neg h, List.map_cons, ih, List.mem_cons, h', false_or]
      split <;> simp

/-- Bind a key, in its old place if it has one and else at the end. -/
def insert (map : OrderedMap κ α) (key : κ) (value : α) : OrderedMap κ α where
  entries := bind key value map.entries
  distinct := by
    rw [keys_bind]
    split
    · exact map.distinct
    · next h =>
      exact List.nodup_append.2 ⟨map.distinct, by simp, by
        intro a ha b hb
        simp only [List.mem_singleton] at hb
        subst hb
        exact fun e => h (e ▸ ha)⟩

/-- Drop the binding of a key. -/
def erase (map : OrderedMap κ α) (key : κ) : OrderedMap κ α where
  entries := map.entries.filter fun entry => entry.1 ≠ key
  distinct := List.Sublist.nodup (List.Sublist.map _ List.filter_sublist) map.distinct

/-- The bindings of a list, later ones over earlier ones. -/
def ofList (entries : List (κ × α)) : OrderedMap κ α :=
  entries.foldl (fun map entry => map.insert entry.1 entry.2) ∅

@[simp] theorem keys_insert (map : OrderedMap κ α) (key : κ) (value : α) :
    (map.insert key value).keys =
      if key ∈ map.keys then map.keys else map.keys ++ [key] :=
  keys_bind key value map.entries

theorem find?_bind (key other : κ) (value : α) (entries : List (κ × α)) :
    (bind key value entries).find? (·.1 = other) =
      if key = other then some (key, value) else entries.find? (·.1 = other) := by
  induction entries with
  | nil => by_cases h : key = other <;> simp [bind, h]
  | cons entry rest ih =>
    rw [bind]
    by_cases hk : entry.1 = key
    · by_cases h : key = other
      · simp [hk, h]
      · simp [hk, h]
    · by_cases h : key = other
      · subst h
        simp [hk, ih]
      · simp [hk, List.find?_cons, ih, h]

@[simp] theorem get?_empty (key : κ) : (∅ : OrderedMap κ α).get? key = none := rfl

@[simp] theorem get?_insert (map : OrderedMap κ α) (key other : κ) (value : α) :
    (map.insert key value).get? other = if key = other then some value else map.get? other := by
  simp only [get?, insert, find?_bind]
  split <;> simp_all

@[simp] theorem get?_erase (map : OrderedMap κ α) (key other : κ) :
    (map.erase key).get? other = if key = other then none else map.get? other := by
  simp only [get?, erase, List.find?_filter]
  by_cases h : key = other
  · subst h
    simp
  · rw [if_neg h]
    congr 2
    funext entry
    by_cases he : entry.1 = other
    · subst he
      simp [Ne.symm h]
    · simp [he]

end OrderedMap

end PropertyGraph
