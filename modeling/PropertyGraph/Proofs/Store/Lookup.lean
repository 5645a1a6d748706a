import PropertyGraph.Proofs.Store.History
import PropertyGraph.Proofs.Value.Key

/-!
Look-ups in a store that reflects a history: by identity, by type and by property they find what a
search through the history finds, in its order.
-/

namespace PropertyGraph

namespace Node

/-- The node has the property, at a value that is the same. -/
def hasProperty (name : String) (value : Value) (node : Node) : Bool :=
  (node.properties.get? name).any fun held => held.same value

theorem hasProperty_iff {name : String} {value : Value} {node : Node} :
    node.hasProperty name value = true ↔
      ∃ held, node.properties.get? name = some held ∧ held.same value = true := by
  unfold hasProperty
  cases node.properties.get? name <;> simp

theorem key?_of_accepted {node : Node} (h : node.notScalar? = none) {name : String}
    {value : Value} (hvalue : node.properties.get? name = some value) :
    ∃ key, value.key? = some key := by
  have hentry := OrderedMap.mem_entries_of_get? hvalue
  have hscalar := List.find?_eq_none.1 (Option.map_eq_none_iff.1 h) _ hentry
  exact Option.ne_none_iff_exists'.1 (by simpa [Value.isScalar] using hscalar)

/-- A node is filed under a key that look-ups use for a property at a value of that key. -/
theorem mem_propertyKeys {node : Node} {name : String} {key : ValueKey} :
    (⟨name, key, none⟩ : PropertyKey) ∈ node.propertyKeys ↔
      ∃ held, node.properties.get? name = some held ∧ held.key? = some key ∧
        key.isReflexive = true := by
  unfold propertyKeys
  rw [List.mem_filterMap]
  constructor
  · rintro ⟨⟨other, held⟩, hentry, hkey⟩
    obtain ⟨key', hheld, heq⟩ := Option.map_eq_some_iff.1 hkey
    simp only [PropertyKey.mk.injEq] at heq
    obtain ⟨rfl, rfl, howner⟩ := heq
    refine ⟨held, OrderedMap.get?_eq_some_iff.2 hentry, hheld, ?_⟩
    cases hreflexive : key'.isReflexive with
    | true => rfl
    | false => simp [hreflexive] at howner
  · rintro ⟨held, hget, hheld, hreflexive⟩
    refine ⟨(name, held), OrderedMap.mem_entries_of_get? hget, ?_⟩
    simp [propertyKey?, hheld, hreflexive]

theorem hasProperty_iff_mem_propertyKeys {node : Node} (h : node.notScalar? = none)
    {name : String} {value : Value} {key : ValueKey} (hvalue : value.key? = some key) :
    node.hasProperty name value = true ↔ (⟨name, key, none⟩ : PropertyKey) ∈ node.propertyKeys := by
  rw [hasProperty_iff, mem_propertyKeys]
  refine exists_congr fun held => and_congr_right fun hheld => ?_
  obtain ⟨heldKey, hheldKey⟩ := key?_of_accepted h hheld
  rw [Value.same_iff_of_key? hheldKey, hheldKey, hvalue]
  constructor
  · rintro ⟨hreflexive, hsame⟩
    exact ⟨hsame.symm, Option.some.inj hsame ▸ hreflexive⟩
  · rintro ⟨hsame, hreflexive⟩
    exact ⟨Option.some.inj hsame ▸ hreflexive, hsame.symm⟩

/-- No accepted node holds a value that cannot be filed. -/
theorem hasProperty_eq_false_of_key? {node : Node} (h : node.notScalar? = none) {name : String}
    {value : Value} (hvalue : value.key? = none) : node.hasProperty name value = false := by
  rw [Bool.eq_false_iff]
  intro hhas
  obtain ⟨held, hheld, hsame⟩ := hasProperty_iff.1 hhas
  obtain ⟨key, hkey⟩ := key?_of_accepted h hheld
  rw [Value.same_iff_of_key? hkey, hvalue] at hsame
  cases hsame.2

end Node

namespace Store.Reflects

variable {store : Store} {history : List Node}

theorem resolve_map_key (h : store.Reflects history) (test : Node → Bool) :
    store.resolve ((history.filter test).map Node.key) = history.filter test := by
  unfold Store.resolve
  have hfind : ∀ node ∈ history.filter test, store.nodes.get? node.key = some node := by
    intro node hnode
    rw [h.nodes, find?_key_eq h.distinct (List.mem_filter.1 hnode).1]
  generalize history.filter test = found at hfind
  induction found with
  | nil => rfl
  | cons node rest ih =>
      rw [List.map_cons, List.filterMap_cons, hfind node List.mem_cons_self]
      exact congrArg _ (ih fun other hother => hfind other (List.mem_cons_of_mem _ hother))

theorem node? (h : store.Reflects history) (id : Value) :
    store.node? id = history.find? fun node => node.key = id.canonicalId :=
  h.nodes _

theorem nodesOfType (h : store.Reflects history) (type : String) :
    store.nodesOfType type = history.filter fun node => node.type = type := by
  have htype := h.byType type
  simp only [List.mem_singleton, eq_comm (a := type)] at htype
  rw [Store.nodesOfType, htype, h.resolve_map_key]

theorem nodesWith (h : store.Reflects history) (name : String) (value : Value) :
    store.nodesWith name value = history.filter (Node.hasProperty name value) := by
  unfold Store.nodesWith
  cases hvalue : value.key? with
  | none =>
      refine (List.filter_eq_nil_iff.2 fun node hnode => ?_).symm
      simp [Node.hasProperty_eq_false_of_key? (h.accepted node hnode) hvalue]
  | some key =>
      simp only
      rw [h.byProperty, h.resolve_map_key]
      refine List.filter_congr fun node hnode => ?_
      rw [Bool.eq_iff_iff, decide_eq_true_iff]
      exact (Node.hasProperty_iff_mem_propertyKeys (h.accepted node hnode) hvalue).symm

end Store.Reflects

end PropertyGraph
