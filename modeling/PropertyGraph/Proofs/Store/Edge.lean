import Mathlib.Data.Finset.Card
import PropertyGraph.Proofs.Store.History

/-!
The index of edges. Its entries are named by joining a source and a relationship with a colon, and
two pairs can join to one name: the source `a:b` with `c`, and `a` with `b:c`. Such pairs share one
entry, and replacing one node takes targets of the other away. Where no stored node can join to the
name of another one's edge the index is exact, and nowhere else.
-/

namespace PropertyGraph

namespace Node

theorem edgeName_inj {source relationship other : String}
    (h : edgeName source relationship = edgeName source other) : relationship = other :=
  (String.append_right_inj _).1 h

theorem mem_edgeFilings {node : Node} {name target : String} :
    (name, target) ∈ node.edgeFilings ↔
      ∃ edge ∈ node.edges,
        edgeName node.key edge.relationship = name ∧ edge.targetKey = target := by
  simp [edgeFilings]

/-- Every edge of the node has a relationship. -/
def Labelled (node : Node) : Prop := ∀ edge ∈ node.edges, edge.relationship ≠ ""

end Node

namespace Store

/-- The pairs of source and relationship that edges of the stored nodes have, each once. -/
def edgePairs (store : Store) : List (String × String) :=
  (store.nodes.values.flatMap fun node =>
    node.edges.map fun edge => (node.key, edge.relationship)).dedup

/-- The index of edges holds the targets of each pair of a stored node and a relationship, and
nothing else. -/
structure EdgesExact (store : Store) : Prop where
  targets : ∀ node ∈ store.nodes.values, ∀ relationship, relationship ≠ "" → ∀ target,
    target ∈ store.byEdge.idsOf (Node.edgeName node.key relationship) ↔
      ∃ edge ∈ node.edges, edge.relationship = relationship ∧ edge.targetKey = target
  absent : ∀ node ∈ store.nodes.values, ∀ relationship, relationship ≠ "" →
    (∀ edge ∈ node.edges, edge.relationship ≠ relationship) →
      store.byEdge.get? (Node.edgeName node.key relationship) = none
  named : ∀ name ∈ store.byEdge.keys, ∃ node ∈ store.nodes.values, ∃ edge ∈ node.edges,
    name = Node.edgeName node.key edge.relationship
  size : store.byEdge.size = store.edgePairs.length

/-- No stored node joins with a relationship to the name of an edge of another one. -/
def EdgeNamesUnshared (store : Store) : Prop :=
  ∀ node ∈ store.nodes.values, ∀ other ∈ store.nodes.values, ∀ edge ∈ other.edges,
    ∀ relationship, relationship ≠ "" →
      Node.edgeName node.key relationship = Node.edgeName other.key edge.relationship →
        node.key = other.key

/-- The index of edges holds what the stored nodes are filed under, each filing once or shared. -/
def EdgesFiled (store : Store) : Prop :=
  ∀ name target, target ∈ store.byEdge.idsOf name ↔
    ∃ node ∈ store.nodes.values, (name, target) ∈ node.edgeFilings

theorem mem_edgePairs {store : Store} {source relationship : String} :
    (source, relationship) ∈ store.edgePairs ↔
      ∃ node ∈ store.nodes.values, ∃ edge ∈ node.edges,
        node.key = source ∧ edge.relationship = relationship := by
  simp [edgePairs]

/-- The keys of the index are the names of the pairs as soon as each pair has a target. -/
theorem keys_toFinset {store : Store}
    (hnamed : ∀ name ∈ store.byEdge.keys, ∃ node ∈ store.nodes.values, ∃ edge ∈ node.edges,
      name = Node.edgeName node.key edge.relationship)
    (htargets : ∀ node ∈ store.nodes.values, ∀ edge ∈ node.edges,
      edge.targetKey ∈ store.byEdge.idsOf (Node.edgeName node.key edge.relationship)) :
    store.byEdge.keys.toFinset =
      store.edgePairs.toFinset.image fun pair => Node.edgeName pair.1 pair.2 := by
  ext name
  rw [List.mem_toFinset, Finset.mem_image]
  constructor
  · intro hname
    obtain ⟨node, hnode, edge, hedge, rfl⟩ := hnamed name hname
    refine ⟨(node.key, edge.relationship), ?_, rfl⟩
    exact List.mem_toFinset.2 (mem_edgePairs.2 ⟨node, hnode, edge, hedge, rfl, rfl⟩)
  · rintro ⟨⟨source, relationship⟩, hpair, rfl⟩
    obtain ⟨node, hnode, edge, hedge, rfl, rfl⟩ := mem_edgePairs.1 (List.mem_toFinset.1 hpair)
    have htarget := htargets node hnode edge hedge
    cases hget : store.byEdge.get? (Node.edgeName node.key edge.relationship) with
    | none => simp [Index.idsOf, hget] at htarget
    | some ids => exact OrderedMap.mem_keys_iff.2 ⟨ids, hget⟩

/-- There are as many entries as pairs exactly if no two pairs share a name. -/
theorem size_eq_iff {store : Store}
    (hkeys : store.byEdge.keys.toFinset =
      store.edgePairs.toFinset.image fun pair => Node.edgeName pair.1 pair.2) :
    store.byEdge.size = store.edgePairs.length ↔
      Set.InjOn (fun pair : String × String => Node.edgeName pair.1 pair.2)
        store.edgePairs.toFinset := by
  have hsize : store.byEdge.size = store.byEdge.keys.toFinset.card := by
    rw [List.toFinset_card_of_nodup (OrderedMap.nodup_keys _), OrderedMap.size_eq_length_keys]
  have hpairs : store.edgePairs.length = store.edgePairs.toFinset.card :=
    (List.toFinset_card_of_nodup (List.nodup_dedup _)).symm
  rw [hsize, hpairs, hkeys, Finset.card_image_iff]

theorem EdgesFiled.mem_idsOf {store : Store} (h : store.EdgesFiled) {node : Node}
    (hnode : node ∈ store.nodes.values) {edge : Edge} (hedge : edge ∈ node.edges) :
    edge.targetKey ∈ store.byEdge.idsOf (Node.edgeName node.key edge.relationship) :=
  (h _ _).2 ⟨node, hnode, Node.mem_edgeFilings.2 ⟨edge, hedge, rfl, rfl⟩⟩

theorem EdgesFiled.exact {store : Store} {history : List Node} (h : store.EdgesFiled)
    (hreflects : store.Reflects history) (hoccupied : store.byEdge.Occupied)
    (hlabels : ∀ node ∈ store.nodes.values, node.Labelled) (hunshared : store.EdgeNamesUnshared) :
    store.EdgesExact := by
  have htargets : ∀ node ∈ store.nodes.values, ∀ relationship, relationship ≠ "" → ∀ target,
      target ∈ store.byEdge.idsOf (Node.edgeName node.key relationship) ↔
        ∃ edge ∈ node.edges, edge.relationship = relationship ∧ edge.targetKey = target := by
    intro node hnode relationship hlabel target
    rw [h]
    constructor
    · rintro ⟨other, hother, hfiling⟩
      -- No other node files under the name, or the name would be shared.
      obtain ⟨edge, hedge, hname, rfl⟩ := Node.mem_edgeFilings.1 hfiling
      have hkey := hunshared node hnode other hother edge hedge relationship hlabel hname.symm
      obtain rfl := hreflects.eq_of_key_eq hnode hother hkey
      exact ⟨edge, hedge, Node.edgeName_inj hname, rfl⟩
    · rintro ⟨edge, hedge, rfl, rfl⟩
      exact ⟨node, hnode, Node.mem_edgeFilings.2 ⟨edge, hedge, rfl, rfl⟩⟩
  have hnamed : ∀ name ∈ store.byEdge.keys, ∃ node ∈ store.nodes.values, ∃ edge ∈ node.edges,
      name = Node.edgeName node.key edge.relationship := by
    intro name hname
    obtain ⟨target, htarget⟩ := (Index.mem_keys_iff hoccupied).1 hname
    obtain ⟨node, hnode, hfiling⟩ := (h _ _).1 htarget
    obtain ⟨edge, hedge, hedgeName, -⟩ := Node.mem_edgeFilings.1 hfiling
    exact ⟨node, hnode, edge, hedge, hedgeName.symm⟩
  refine ⟨htargets, ?_, hnamed, ?_⟩
  · intro node hnode relationship hlabel hnone
    rw [OrderedMap.get?_eq_none_iff, Index.mem_keys_iff hoccupied]
    rintro ⟨target, htarget⟩
    obtain ⟨edge, hedge, hsame, -⟩ := (htargets node hnode relationship hlabel target).1 htarget
    exact hnone edge hedge hsame
  · rw [size_eq_iff (keys_toFinset hnamed fun node hnode edge hedge => h.mem_idsOf hnode hedge)]
    rintro ⟨source, relationship⟩ hpair ⟨other, otherRelationship⟩ hotherPair hname
    obtain ⟨node, hnode, edge, hedge, rfl, rfl⟩ := mem_edgePairs.1 (List.mem_toFinset.1 hpair)
    obtain ⟨otherNode, hother, otherEdge, hotherEdge, rfl, rfl⟩ :=
      mem_edgePairs.1 (List.mem_toFinset.1 hotherPair)
    have hkey := hunshared node hnode otherNode hother otherEdge hotherEdge _
      (hlabels node hnode edge hedge) hname
    simp only at hname
    rw [hkey] at hname ⊢
    rw [Node.edgeName_inj hname]

theorem EdgesExact.edgesFiled {store : Store} (h : store.EdgesExact)
    (hlabels : ∀ node ∈ store.nodes.values, node.Labelled) : store.EdgesFiled := by
  intro name target
  constructor
  · intro htarget
    have hname : name ∈ store.byEdge.keys := by
      cases hget : store.byEdge.get? name with
      | none => simp [Index.idsOf, hget] at htarget
      | some ids => exact OrderedMap.mem_keys_iff.2 ⟨ids, hget⟩
    obtain ⟨node, hnode, edge, hedge, rfl⟩ := h.named name hname
    obtain ⟨other, hother, hsame, rfl⟩ :=
      (h.targets node hnode _ (hlabels node hnode edge hedge) target).1 htarget
    exact ⟨node, hnode, Node.mem_edgeFilings.2 ⟨other, hother, by rw [hsame], rfl⟩⟩
  · rintro ⟨node, hnode, hfiling⟩
    obtain ⟨edge, hedge, rfl, rfl⟩ := Node.mem_edgeFilings.1 hfiling
    exact (h.targets node hnode _ (hlabels node hnode edge hedge) _).2 ⟨edge, hedge, rfl, rfl⟩

theorem EdgesExact.edgeNamesUnshared {store : Store} (h : store.EdgesExact)
    (hlabels : ∀ node ∈ store.nodes.values, node.Labelled) : store.EdgeNamesUnshared := by
  intro node hnode other hother edge hedge relationship hlabel hname
  have hfiled := h.edgesFiled hlabels
  have hinj := (size_eq_iff (keys_toFinset h.named fun node hnode edge hedge =>
    hfiled.mem_idsOf hnode hedge)).1 h.size
  -- The entry holds a target of the other node's edge, so the node has an edge to it as well.
  have htarget := hfiled.mem_idsOf hother hedge
  rw [← hname, h.targets node hnode relationship hlabel] at htarget
  obtain ⟨mine, hmine, rfl, -⟩ := htarget
  have hpair : (node.key, mine.relationship) ∈ store.edgePairs.toFinset :=
    List.mem_toFinset.2 (mem_edgePairs.2 ⟨node, hnode, mine, hmine, rfl, rfl⟩)
  have hotherPair : (other.key, edge.relationship) ∈ store.edgePairs.toFinset :=
    List.mem_toFinset.2 (mem_edgePairs.2 ⟨other, hother, edge, hedge, rfl, rfl⟩)
  exact congrArg Prod.fst (hinj hpair hotherPair hname)

theorem edgesFiled_empty : EdgesFiled ∅ := by
  intro name target
  constructor
  · intro h
    exact absurd h List.not_mem_nil
  · rintro ⟨node, hnode, -⟩
    exact absurd hnode List.not_mem_nil

theorem accepted_of_add {policy : ReplacePolicy} {store after : Store} {node : Node}
    (h : store.add policy node = .ok after) : node.notScalar?.isNone = true := by
  rw [(add_eq_ok_iff.1 h).1]
  rfl

theorem add_byEdge {policy : ReplacePolicy} {store after : Store} {node : Node}
    (h : store.add policy node = .ok after) :
    after.byEdge = (store.prepare policy node.key).byEdge.fileAll node.edgeFilings := by
  obtain ⟨-, rfl⟩ := add_eq_ok_iff.1 h
  rfl

theorem mem_idsOf_prepare {store : Store} {key name target : String} :
    target ∈ (store.prepare .replace key).byEdge.idsOf name ↔
      target ∈ store.byEdge.idsOf name ∧
        ∀ previous, store.nodes.get? key = some previous →
          (name, target) ∉ previous.edgeFilings := by
  unfold Store.prepare
  cases store.nodes.get? key with
  | none => simp
  | some previous => simp [Index.mem_idsOf_unfileAll]

/-- Replacing a node takes away only filings of its own, as long as no name is shared. -/
theorem EdgesFiled.add {store after : Store} {history : List Node} (h : store.EdgesFiled)
    (hreflects : store.Reflects history) (hlabels : ∀ node ∈ store.nodes.values, node.Labelled)
    (hunshared : store.EdgeNamesUnshared) {node : Node} (hadd : store.add .replace node = .ok after)
    (hafter : after.Reflects ((history.filter fun old => old.key ≠ node.key) ++ [node])) :
    after.EdgesFiled := by
  intro name target
  rw [add_byEdge hadd, Index.mem_idsOf_fileAll, mem_idsOf_prepare, h]
  constructor
  · rintro (⟨⟨old, hold, hfiling⟩, hkept⟩ | hfiling)
    · refine ⟨old, hafter.mem_values_iff.2 (List.mem_append_left _ (List.mem_filter.2 ?_)), hfiling⟩
      have hmem := hreflects.mem_values_iff.1 hold
      refine ⟨hmem, ?_⟩
      rw [decide_eq_true_iff]
      -- Had the node been replaced, its filings would have gone with it.
      intro hkey
      refine hkept old ?_ hfiling
      rw [hreflects.nodes, ← hkey, find?_key_eq hreflects.distinct hmem]
    · exact ⟨node, hafter.mem_values_iff.2 (by simp), hfiling⟩
  · rintro ⟨other, hother, hfiling⟩
    rcases List.mem_append.1 (hafter.mem_values_iff.1 hother) with hold | hnew
    · obtain ⟨hmem, hkey⟩ := List.mem_filter.1 hold
      have hvalue := hreflects.mem_values_iff.2 hmem
      refine .inl ⟨⟨other, hvalue, hfiling⟩, ?_⟩
      -- If the predecessor had the same filing, the two nodes would share its name.
      intro previous hprevious hshared
      rw [hreflects.nodes] at hprevious
      have hpreviousKey : previous.key = node.key := by simpa using List.find?_some hprevious
      have hpreviousValue := hreflects.mem_values_iff.2 (List.mem_of_find?_eq_some hprevious)
      obtain ⟨edge, hedge, hname, -⟩ := Node.mem_edgeFilings.1 hfiling
      obtain ⟨mine, hmine, hmineName, -⟩ := Node.mem_edgeFilings.1 hshared
      have hsame := hunshared other hvalue previous hpreviousValue mine hmine edge.relationship
        (hlabels other hvalue edge hedge) (hname.trans hmineName.symm)
      simp [hsame.trans hpreviousKey] at hkey
    · obtain rfl := List.mem_singleton.1 hnew
      exact .inr hfiling

end Store

end PropertyGraph
