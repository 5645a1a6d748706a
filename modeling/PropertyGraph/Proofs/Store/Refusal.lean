import PropertyGraph.Proofs.OrderedMap
import PropertyGraph.Proofs.Value.Part
import PropertyGraph.Store.Basic

/-!
Nodes that are refused. A node is refused before anything of it is stored, so a list of nodes is
added as far as its first refused node, and that node leaves nothing behind.
-/

namespace PropertyGraph

namespace Node

/-- A part of a property of the node is a list or a mapping. -/
def Unfileable (node : Node) : Prop :=
  ∃ name value, node.properties.get? name = some value ∧ value.HasPart Value.IsMutable

/-- The refusal names the node and its first property that cannot be filed. -/
structure RefusedWith (node : Node) (e : NotScalar) : Prop where
  owner : e.node = node.key
  property : node.properties.get? e.property = some e.value
  mutable : e.value.HasPart Value.IsMutable
  first : ∃ before after, node.properties.entries = before ++ (e.property, e.value) :: after ∧
    ∀ entry ∈ before, ¬ entry.2.HasPart Value.IsMutable

theorem refusedWith_of_notScalar? {node : Node} {e : NotScalar} (h : node.notScalar? = some e) :
    node.RefusedWith e := by
  obtain ⟨entry, hfind, rfl⟩ := Option.map_eq_some_iff.1 h
  obtain ⟨hentry, before, after, hentries, hbefore⟩ := List.find?_eq_some_iff_append.1 hfind
  have hmutable : entry.2.HasPart Value.IsMutable :=
    Value.isScalar_eq_false_iff.1 (by simpa using hentry)
  refine ⟨rfl, OrderedMap.get?_eq_some_iff.2 ?_, hmutable, before, after, hentries, ?_⟩
  · rw [hentries]
    exact List.mem_append_right _ List.mem_cons_self
  · intro other hother
    rw [← Value.isScalar_eq_false_iff]
    simpa using hbefore other hother

theorem notScalar?_eq_none_iff {node : Node} : node.notScalar? = none ↔ ¬ node.Unfileable := by
  constructor
  · rintro h ⟨name, value, hvalue, hmutable⟩
    have hscalar := List.find?_eq_none.1 (Option.map_eq_none_iff.1 h) _
      (OrderedMap.mem_entries_of_get? hvalue)
    rw [← Value.isScalar_eq_false_iff] at hmutable
    simp [hmutable] at hscalar
  · intro h
    cases hnode : node.notScalar? with
    | none => rfl
    | some e =>
        have hrefused := refusedWith_of_notScalar? hnode
        exact absurd ⟨e.property, e.value, hrefused.property, hrefused.mutable⟩ h

theorem exists_notScalar?_iff {node : Node} : (∃ e, node.notScalar? = some e) ↔ node.Unfileable := by
  rw [← Option.ne_none_iff_exists', Ne, notScalar?_eq_none_iff, Classical.not_not]

end Node

namespace Store

variable {policy : ReplacePolicy} {store : Store}

theorem exists_add (policy : ReplacePolicy) (store : Store) {node : Node}
    (h : node.notScalar? = none) : ∃ after, store.add policy node = .ok after :=
  ⟨_, add_eq_ok_iff.2 ⟨h, rfl⟩⟩

theorem addAll_cons_of_ok {node : Node} {after : Store} (h : store.add policy node = .ok after)
    (rest : List Node) : store.addAll policy (node :: rest) = after.addAll policy rest := by
  rw [addAll, h]

theorem addAll_cons_of_error {node : Node} {e : NotScalar} (h : store.add policy node = .error e)
    (rest : List Node) : store.addAll policy (node :: rest) = (store, some e) := by
  rw [addAll, h]

/-- A list is added to its end exactly if each of its nodes is accepted. -/
theorem addAll_eq_none_iff {nodes : List Node} :
    (store.addAll policy nodes).2 = none ↔ ∀ node ∈ nodes, node.notScalar? = none := by
  induction nodes generalizing store with
  | nil => exact iff_of_true rfl nofun
  | cons node rest ih =>
      rw [List.forall_mem_cons]
      cases hnode : node.notScalar? with
      | none =>
          obtain ⟨after, hafter⟩ := exists_add policy store hnode
          rw [addAll_cons_of_ok hafter, ih]
          exact (and_iff_right rfl).symm
      | some e =>
          rw [addAll_cons_of_error (add_eq_error_iff.2 hnode)]
          exact iff_of_false nofun fun h => nomatch h.1

/-- A refused node stops the adding where it stands. -/
theorem addAll_of_refused (policy : ReplacePolicy) (store : Store) {accepted : List Node}
    {node : Node} {e : NotScalar} (haccepted : ∀ earlier ∈ accepted, earlier.notScalar? = none)
    (hrefused : node.notScalar? = some e) (rest : List Node) :
    store.addAll policy (accepted ++ node :: rest) =
      ((store.addAll policy accepted).1, some e) := by
  induction accepted generalizing store with
  | nil => exact addAll_cons_of_error (add_eq_error_iff.2 hrefused) rest
  | cons first accepted ih =>
      obtain ⟨after, hafter⟩ := exists_add policy store (haccepted first List.mem_cons_self)
      rw [List.cons_append, addAll_cons_of_ok hafter, addAll_cons_of_ok hafter]
      exact ih after fun other hother => haccepted other (List.mem_cons_of_mem _ hother)

end Store

end PropertyGraph
