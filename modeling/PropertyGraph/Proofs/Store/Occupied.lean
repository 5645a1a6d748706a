import PropertyGraph.Proofs.Store.Index
import PropertyGraph.Store.Basic

/-!
A store keeps no key with nothing filed under it: filing adds no such key, and unfiling drops a key
with the last identity under it. So the sizes of the indexes are counts of what is stored.
-/

namespace PropertyGraph.Store

/-- Each key of the indexes has something filed under it. -/
structure Occupied (store : Store) : Prop where
  byType : store.byType.Occupied
  byProperty : store.byProperty.Occupied
  byEdge : store.byEdge.Occupied

theorem occupied_empty : Occupied ∅ :=
  ⟨Index.occupied_empty, Index.occupied_empty, Index.occupied_empty⟩

theorem Occupied.prepare {store : Store} (h : store.Occupied) (policy : ReplacePolicy)
    (key : String) : (store.prepare policy key).Occupied := by
  unfold Store.prepare
  split
  · exact ⟨Index.occupied_unfileAll h.byType _, Index.occupied_unfileAll h.byProperty _,
      Index.occupied_unfileAll h.byEdge _⟩
  · exact h

theorem Occupied.add {policy : ReplacePolicy} {store after : Store} {node : Node}
    (h : store.Occupied) (hadd : store.add policy node = .ok after) : after.Occupied := by
  obtain ⟨-, rfl⟩ := add_eq_ok_iff.1 hadd
  have hprepared := h.prepare policy node.key
  exact ⟨Index.occupied_fileAll hprepared.byType _,
    Index.occupied_fileAll hprepared.byProperty _, Index.occupied_fileAll hprepared.byEdge _⟩

end PropertyGraph.Store
