import PropertyGraph.Proofs.Store.Index
import PropertyGraph.Store.Basic

/-!
A store whose filings are replaced shows its history: of the nodes that were added the last one of
each identity, in the order in which these last ones came. `Store.Reflects` says so of the nodes and
of the indexes by type and by property, and adding a node keeps it.
-/

namespace PropertyGraph

/-- The last node of each identity, in the order of these last places. -/
def latest : List Node → List Node
  | [] => []
  | node :: rest =>
    if rest.any fun later => later.key = node.key then latest rest else node :: latest rest

theorem latest_append (nodes : List Node) (node : Node) :
    latest (nodes ++ [node]) = (latest nodes).filter (fun old => old.key ≠ node.key) ++ [node] := by
  induction nodes with
  | nil => simp [latest]
  | cons first rest ih =>
      rw [List.cons_append, latest, ih, latest, List.any_append]
      cases rest.any fun later => later.key = first.key with
      | true => simp
      | false =>
          by_cases h : node.key = first.key
          · simp [h]
          · simp [h, Ne.symm h]

theorem mem_of_mem_latest {nodes : List Node} {node : Node} (h : node ∈ latest nodes) :
    node ∈ nodes := by
  induction nodes with
  | nil => exact h
  | cons first rest ih =>
      rw [latest] at h
      split at h
      · exact List.mem_cons_of_mem _ (ih h)
      · exact List.mem_cons.2 ((List.mem_cons.1 h).imp_right ih)

/-- Where no two nodes share an identity, an identity finds its node. -/
theorem find?_key_eq {nodes : List Node} (hdistinct : (nodes.map Node.key).Nodup) {node : Node}
    (h : node ∈ nodes) : nodes.find? (fun other => other.key = node.key) = some node := by
  induction nodes with
  | nil => cases h
  | cons first rest ih =>
      rw [List.map_cons, List.nodup_cons] at hdistinct
      rcases List.mem_cons.1 h with rfl | hrest
      · simp
      · have hne : first.key ≠ node.key := by
          intro hkey
          exact hdistinct.1 (hkey ▸ List.mem_map_of_mem hrest)
        rw [List.find?_cons_of_neg (by simpa using hne)]
        exact ih hdistinct.2 hrest

/-- After a node was put in the place of its predecessor, its identity finds it. -/
theorem find?_key_replaced (nodes : List Node) (node : Node) (key : String) :
    ((nodes.filter fun old => old.key ≠ node.key) ++ [node]).find?
        (fun other => other.key = key) =
      if node.key = key then some node else nodes.find? fun other => other.key = key := by
  induction nodes with
  | nil => by_cases h : node.key = key <;> simp [h]
  | cons first rest ih =>
      by_cases hfirst : first.key = node.key
      · rw [List.filter_cons_of_neg (by simpa using hfirst), ih]
        by_cases h : node.key = key
        · simp [h]
        · simp [h, hfirst]
      · rw [List.filter_cons_of_pos (by simpa using hfirst), List.cons_append, List.find?_cons, ih]
        by_cases h : node.key = key
        · subst h
          simp [hfirst]
        · simp [h, List.find?_cons]

theorem eq_of_key_eq {nodes : List Node} (hdistinct : (nodes.map Node.key).Nodup)
    {node other : Node} (hnode : node ∈ nodes) (hother : other ∈ nodes)
    (hkey : node.key = other.key) : node = other := by
  have h := find?_key_eq hdistinct hnode
  rw [hkey, find?_key_eq hdistinct hother] at h
  exact (Option.some.inj h).symm

namespace Index

variable {κ : Type u}

/-- The filings of a node under its keys. -/
def filings (keysOf : Node → List κ) (node : Node) : List (κ × String) :=
  (keysOf node).map fun key => (key, node.key)

theorem mem_filings {keysOf : Node → List κ} {node : Node} {key : κ} {id : String} :
    (key, id) ∈ filings keysOf node ↔ key ∈ keysOf node ∧ id = node.key := by
  constructor
  · intro h
    obtain ⟨other, hother, heq⟩ := List.mem_map.1 h
    obtain ⟨rfl, rfl⟩ := Prod.mk.inj heq
    exact ⟨hother, rfl⟩
  · rintro ⟨h, rfl⟩
    exact List.mem_map_of_mem h

variable [DecidableEq κ]

/-- Under each key stand the nodes that have it among theirs, in the order of the history. -/
def Reflects (keysOf : Node → List κ) (index : Index κ) (history : List Node) : Prop :=
  ∀ key, index.idsOf key = (history.filter fun node => key ∈ keysOf node).map Node.key

variable {keysOf : Node → List κ} {index : Index κ} {history : List Node} {node : Node}

theorem Reflects.unfileAll (h : Reflects keysOf index history)
    (hdistinct : (history.map Node.key).Nodup) (hnode : node ∈ history) :
    Reflects keysOf (index.unfileAll (filings keysOf node))
      (history.filter fun old => old.key ≠ node.key) := by
  intro key
  rw [idsOf_unfileAll, h key, List.filter_map, List.filter_filter, List.filter_filter]
  refine congrArg _ (List.filter_congr fun old hold => ?_)
  by_cases hkey : old.key = node.key
  · obtain rfl := eq_of_key_eq hdistinct hold hnode hkey
    simp [mem_filings]
  · simp [mem_filings, hkey]

theorem Reflects.fileAll (h : Reflects keysOf index history)
    (hnode : node.key ∉ history.map Node.key) :
    Reflects keysOf (index.fileAll (filings keysOf node)) (history ++ [node]) := by
  intro key
  have hfresh : node.key ∉ index.idsOf key := by
    rw [h key]
    intro hmem
    obtain ⟨old, hold, hkey⟩ := List.mem_map.1 hmem
    exact hnode (hkey ▸ List.mem_map_of_mem (List.mem_filter.1 hold).1)
  rw [idsOf_fileAll fun entry hentry => (mem_filings.1 hentry).2, h key]
  rw [h key] at hfresh
  by_cases hkey : key ∈ keysOf node
  · simp [mem_filings, hkey, hfresh]
  · simp [mem_filings, hkey]

end Index

namespace Node

/-- What the node is filed under for its properties. -/
def propertyKeys (node : Node) : List PropertyKey :=
  node.properties.entries.filterMap fun entry => node.propertyKey? entry.1 entry.2

theorem typeFilings_eq (node : Node) : node.typeFilings = Index.filings (fun n => [n.type]) node :=
  rfl

theorem propertyFilings_eq (node : Node) :
    node.propertyFilings = Index.filings propertyKeys node := by
  rw [propertyFilings, Index.filings, propertyKeys, List.map_filterMap]

end Node

namespace Store

/-- The store holds the nodes of a history, and its indexes show them in the order of the
history. -/
structure Reflects (store : Store) (history : List Node) : Prop where
  distinct : (history.map Node.key).Nodup
  accepted : ∀ node ∈ history, node.notScalar? = none
  nodes : ∀ key, store.nodes.get? key = history.find? fun node => node.key = key
  byType : Index.Reflects (fun node => [node.type]) store.byType history
  byProperty : Index.Reflects Node.propertyKeys store.byProperty history

theorem reflects_empty : Reflects ∅ [] where
  distinct := List.nodup_nil
  accepted := nofun
  nodes _ := rfl
  byType _ := rfl
  byProperty _ := rfl

/-- What is left of a store when a node of a key is to be replaced. -/
theorem Reflects.prepare {store : Store} {history : List Node} (h : store.Reflects history)
    (key : String) :
    Index.Reflects (fun node => [node.type]) (store.prepare .replace key).byType
        (history.filter fun old => old.key ≠ key) ∧
      Index.Reflects Node.propertyKeys (store.prepare .replace key).byProperty
        (history.filter fun old => old.key ≠ key) := by
  have hget := h.nodes key
  unfold Store.prepare
  cases hprevious : store.nodes.get? key with
  | none =>
      rw [hprevious] at hget
      -- The identity is new, so no node leaves the history.
      have hall : (history.filter fun old => old.key ≠ key) = history := by
        refine List.filter_eq_self.2 fun old hold => ?_
        simpa using List.find?_eq_none.1 hget.symm old hold
      rw [hall]
      exact ⟨h.byType, h.byProperty⟩
  | some previous =>
      rw [hprevious] at hget
      have hkey : previous.key = key := by simpa using List.find?_some hget.symm
      have hmem : previous ∈ history := List.mem_of_find?_eq_some hget.symm
      subst hkey
      constructor
      · simp only [unfile_byType, Node.typeFilings_eq]
        exact h.byType.unfileAll h.distinct hmem
      · simp only [unfile_byProperty, Node.propertyFilings_eq]
        exact h.byProperty.unfileAll h.distinct hmem

/-- An accepted node takes the last place of the history, away from that of its predecessor. -/
theorem Reflects.add {store : Store} {history : List Node} (h : store.Reflects history)
    {node : Node} (hscalar : node.notScalar? = none) :
    ∃ after, store.add .replace node = .ok after ∧
      after.Reflects ((history.filter fun old => old.key ≠ node.key) ++ [node]) := by
  refine ⟨_, add_eq_ok_iff.2 ⟨hscalar, rfl⟩, ?_⟩
  obtain ⟨htype, hproperty⟩ := h.prepare node.key
  have hfresh : node.key ∉ (history.filter fun old => old.key ≠ node.key).map Node.key := by
    simp
  constructor
  · rw [List.map_append]
    refine List.nodup_append.2 ⟨?_, by simp, ?_⟩
    · exact List.Sublist.nodup (List.Sublist.map _ List.filter_sublist) h.distinct
    · rintro key hkey other hother rfl
      rw [List.map_singleton, List.mem_singleton] at hother
      exact hfresh (hother ▸ hkey)
  · intro old hold
    rcases List.mem_append.1 hold with hold | hold
    · exact h.accepted old (List.mem_filter.1 hold).1
    · rw [List.mem_singleton.1 hold]
      exact hscalar
  · intro key
    rw [file_nodes, OrderedMap.get?_insert, h.nodes, find?_key_replaced]
  · simp only [file_byType, Node.typeFilings_eq]
    exact htype.fileAll hfresh
  · simp only [file_byProperty, Node.propertyFilings_eq]
    exact hproperty.fileAll hfresh

/-- Stored nodes are those of the history. -/
theorem Reflects.mem_values_iff {store : Store} {history : List Node} (h : store.Reflects history)
    {node : Node} : node ∈ store.nodes.values ↔ node ∈ history := by
  constructor
  · intro hnode
    obtain ⟨⟨key, _⟩, hentry, rfl⟩ := List.mem_map.1 hnode
    have hget := OrderedMap.get?_eq_some_iff.2 hentry
    rw [h.nodes] at hget
    exact List.mem_of_find?_eq_some hget
  · intro hnode
    have hget : store.nodes.get? node.key = some node := by
      rw [h.nodes, find?_key_eq h.distinct hnode]
    exact List.mem_map_of_mem (OrderedMap.mem_entries_of_get? hget)

theorem Reflects.eq_of_key_eq {store : Store} {history : List Node} (h : store.Reflects history)
    {node other : Node} (hnode : node ∈ store.nodes.values) (hother : other ∈ store.nodes.values)
    (hkey : node.key = other.key) : node = other :=
  PropertyGraph.eq_of_key_eq h.distinct (h.mem_values_iff.1 hnode) (h.mem_values_iff.1 hother) hkey

end Store

end PropertyGraph
