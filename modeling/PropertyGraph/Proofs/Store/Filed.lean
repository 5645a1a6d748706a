import PropertyGraph.Proofs.Store.Lookup
import PropertyGraph.Proofs.Value.Part

/-!
Stores that have filed the nodes that they hold, whatever else is filed. Such a node is found under
its type and under each value of its own that holds no NaN.
-/

namespace PropertyGraph

namespace Store

/-- Each stored node is filed under its type and its properties. -/
structure Filed (store : Store) : Prop where
  keyed : ∀ key node, store.nodes.get? key = some node → node.key = key
  accepted : ∀ key node, store.nodes.get? key = some node → node.notScalar? = none
  byType : ∀ key node, store.nodes.get? key = some node → key ∈ store.byType.idsOf node.type
  byProperty : ∀ key node, store.nodes.get? key = some node → ∀ filing ∈ node.propertyKeys,
    key ∈ store.byProperty.idsOf filing

theorem mem_resolve {store : Store} {ids : List String} {node : Node} :
    node ∈ store.resolve ids ↔ ∃ key ∈ ids, store.nodes.get? key = some node :=
  List.mem_filterMap

/-- A store that shows its history has filed it. -/
theorem Reflects.filed {store : Store} {history : List Node} (h : store.Reflects history) :
    store.Filed := by
  have hmem : ∀ key node, store.nodes.get? key = some node → node ∈ history ∧ node.key = key := by
    intro key node hget
    rw [h.nodes] at hget
    exact ⟨List.mem_of_find?_eq_some hget, by simpa using List.find?_some hget⟩
  constructor
  · exact fun key node hget => (hmem key node hget).2
  · exact fun key node hget => h.accepted node (hmem key node hget).1
  · intro key node hget
    obtain ⟨hnode, rfl⟩ := hmem key node hget
    rw [h.byType]
    exact List.mem_map_of_mem (List.mem_filter.2 ⟨hnode, by simp⟩)
  · intro key node hget filing hfiling
    obtain ⟨hnode, rfl⟩ := hmem key node hget
    rw [h.byProperty]
    exact List.mem_map_of_mem (List.mem_filter.2 ⟨hnode, decide_eq_true hfiling⟩)

namespace Filed

variable {store : Store} {key : String} {node : Node}

theorem mem_nodesOfType (h : store.Filed) (hget : store.nodes.get? key = some node) :
    node ∈ store.nodesOfType node.type :=
  mem_resolve.2 ⟨key, h.byType key node hget, hget⟩

/-- A stored node is found under each value that is the same as one of its own. -/
theorem mem_nodesWith (h : store.Filed) (hget : store.nodes.get? key = some node) {name : String}
    {value : Value} (hhas : node.hasProperty name value = true) :
    node ∈ store.nodesWith name value := by
  have haccepted := h.accepted key node hget
  unfold Store.nodesWith
  cases hvalue : value.key? with
  | none =>
      rw [Node.hasProperty_eq_false_of_key? haccepted hvalue] at hhas
      cases hhas
  | some valueKey =>
      have hfiling := (Node.hasProperty_iff_mem_propertyKeys haccepted hvalue).1 hhas
      exact mem_resolve.2 ⟨key, h.byProperty key node hget _ hfiling, hget⟩

/-- A stored node is found under each of its own values that no part of is NaN. -/
theorem mem_nodesWith_of_property (h : store.Filed) (hget : store.nodes.get? key = some node)
    {name : String} {value : Value} (hvalue : node.properties.get? name = some value)
    (hnan : ¬ value.HasPart Value.IsNan) : node ∈ store.nodesWith name value := by
  obtain ⟨valueKey, hkey⟩ := Node.key?_of_accepted (h.accepted key node hget) hvalue
  have hscalar : value.isScalar = true := by rw [Value.isScalar, hkey]; rfl
  exact h.mem_nodesWith hget
    (Node.hasProperty_iff.2 ⟨value, hvalue, Value.same_self hscalar hnan⟩)

end Filed

end Store

end PropertyGraph
