import PropertyGraph.Proofs.OrderedMap
import PropertyGraph.Store.Index

/-!
What filing and unfiling whole lists does to an index. Unfiling leaves the identities that are not
listed, in their order; filing puts new ones at the end. No operation leaves a key with nothing
under it.
-/

namespace PropertyGraph.Index

variable {κ : Type u} [DecidableEq κ]

theorem idsOf_unfileAll (index : Index κ) (entries : List (κ × String)) (key : κ) :
    (index.unfileAll entries).idsOf key =
      (index.idsOf key).filter fun id => (key, id) ∉ entries := by
  unfold unfileAll
  induction entries generalizing index with
  | nil => exact (List.filter_eq_self.2 fun _ _ => by simp).symm
  | cons entry rest ih =>
      rw [List.foldl_cons, ih, idsOf_unfile]
      obtain ⟨other, id⟩ := entry
      split
      · next h =>
        subst h
        rw [List.filter_filter]
        exact List.filter_congr fun other _ => by simp [Bool.and_comm]
      · next h =>
        exact List.filter_congr fun other _ => by simp [Ne.symm h]

theorem mem_idsOf_unfileAll {index : Index κ} {entries : List (κ × String)} {key : κ}
    {id : String} :
    id ∈ (index.unfileAll entries).idsOf key ↔ id ∈ index.idsOf key ∧ (key, id) ∉ entries := by
  simp [idsOf_unfileAll]

/-- Filing one identity under several keys puts it at the end of each where it is new. -/
theorem idsOf_fileAll {index : Index κ} {entries : List (κ × String)} {id : String}
    (h : ∀ entry ∈ entries, entry.2 = id) (key : κ) :
    (index.fileAll entries).idsOf key =
      if (key, id) ∈ entries ∧ id ∉ index.idsOf key then index.idsOf key ++ [id]
      else index.idsOf key := by
  unfold fileAll
  induction entries generalizing index with
  | nil => simp
  | cons entry rest ih =>
      obtain ⟨other, id'⟩ := entry
      obtain rfl : id' = id := h _ List.mem_cons_self
      rw [List.foldl_cons, ih fun entry hentry => h entry (List.mem_cons_of_mem _ hentry),
        idsOf_file]
      by_cases hkey : other = key
      · subst hkey
        by_cases hid : id' ∈ index.idsOf other <;> simp [hid]
      · simp [hkey, Ne.symm hkey]

theorem mem_idsOf_file {index : Index κ} {key other : κ} {id target : String} :
    target ∈ (index.file key id).idsOf other ↔
      target ∈ index.idsOf other ∨ (other, target) = (key, id) := by
  rw [idsOf_file]
  by_cases hkey : key = other
  · subst hkey
    by_cases hid : id ∈ index.idsOf key
    · simp only [hid, not_true_eq_false, and_false, if_false, Prod.mk.injEq, true_and]
      refine ⟨.inl, ?_⟩
      rintro (h | rfl)
      · exact h
      · exact hid
    · simp [hid]
  · simp [hkey, Ne.symm hkey]

theorem mem_idsOf_fileAll {index : Index κ} {entries : List (κ × String)} {key : κ}
    {id : String} :
    id ∈ (index.fileAll entries).idsOf key ↔ id ∈ index.idsOf key ∨ (key, id) ∈ entries := by
  unfold fileAll
  induction entries generalizing index with
  | nil => simp
  | cons entry rest ih =>
      rw [List.foldl_cons, ih, mem_idsOf_file, or_assoc, List.mem_cons]

/-- Each key has something filed under it. -/
def Occupied (index : Index κ) : Prop :=
  ∀ key ∈ OrderedMap.keys index, index.idsOf key ≠ []

theorem occupied_empty : Index.Occupied (∅ : Index κ) := by
  intro key h
  cases h

theorem mem_keys_iff {index : Index κ} (h : index.Occupied) {key : κ} :
    key ∈ OrderedMap.keys index ↔ ∃ id, id ∈ index.idsOf key := by
  constructor
  · intro hkey
    exact List.exists_mem_of_ne_nil _ (h key hkey)
  · rintro ⟨id, hid⟩
    cases hget : OrderedMap.get? index key with
    | none => simp [idsOf, hget] at hid
    | some ids => exact OrderedMap.mem_keys_iff.2 ⟨ids, hget⟩

theorem occupied_file {index : Index κ} (h : index.Occupied) (key : κ) (id : String) :
    (index.file key id).Occupied := by
  intro other hother
  rw [idsOf_file]
  split
  · simp
  · next hsame =>
    refine h other ?_
    unfold file at hother
    split at hother
    · exact hother
    · next hid =>
      rcases OrderedMap.mem_keys_insert.1 hother with rfl | hkey
      · exact absurd ⟨rfl, hid⟩ hsame
      · exact hkey

theorem occupied_unfile {index : Index κ} (h : index.Occupied) (key : κ) (id : String) :
    (index.unfile key id).Occupied := by
  intro other hother
  rw [idsOf_unfile]
  unfold unfile at hother
  simp only at hother
  split at hother
  · obtain ⟨hne, hkey⟩ := OrderedMap.mem_keys_erase.1 hother
    rw [if_neg (Ne.symm hne)]
    exact h other hkey
  · next hrest =>
    split
    · exact fun hnil => hrest (List.isEmpty_iff.2 hnil)
    · next hne =>
      rcases OrderedMap.mem_keys_insert.1 hother with rfl | hkey
      · exact absurd rfl hne
      · exact h other hkey

theorem occupied_fileAll {index : Index κ} (h : index.Occupied)
    (entries : List (κ × String)) : (index.fileAll entries).Occupied := by
  unfold fileAll
  induction entries generalizing index with
  | nil => exact h
  | cons entry rest ih => exact ih (occupied_file h _ _)

theorem occupied_unfileAll {index : Index κ} (h : index.Occupied)
    (entries : List (κ × String)) : (index.unfileAll entries).Occupied := by
  unfold unfileAll
  induction entries generalizing index with
  | nil => exact h
  | cons entry rest ih => exact ih (occupied_unfile h _ _)

end PropertyGraph.Index
