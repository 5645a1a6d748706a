import PropertyGraph.Proofs.Store.Filed

/-!
A store that keeps its filings shows all nodes that were ever added. Under a type or a value stand
the identities of the nodes that had it when they were added, each where it came first, and an
identity stands for the node that was added last. `Store.Accumulates` says so of the nodes and of
the indexes by type and by property, and adding a node keeps it.
-/

namespace PropertyGraph

/-- The node that was added last under an identity. -/
def current (added : List Node) (key : String) : Option Node :=
  added.reverse.find? fun node => node.key = key

/-- The identities under which nodes that pass a test were added, each once, in the order in which
they first were. -/
def identities (test : Node → Bool) (added : List Node) : List String :=
  ((added.filter test).map Node.key).eraseDups

theorem current_concat (added : List Node) (node : Node) (key : String) :
    current (added ++ [node]) key = if node.key = key then some node else current added key := by
  unfold current
  rw [List.reverse_append, List.reverse_singleton, List.singleton_append, List.find?_cons]
  by_cases h : node.key = key <;> simp [h]

theorem mem_of_current {added : List Node} {key : String} {node : Node}
    (h : current added key = some node) : node ∈ added ∧ node.key = key :=
  ⟨List.mem_reverse.1 (List.mem_of_find?_eq_some h), by simpa using List.find?_some h⟩

theorem exists_current {added : List Node} {node : Node} (h : node ∈ added) :
    ∃ latest, current added node.key = some latest := by
  have hsome : (current added node.key).isSome = true :=
    List.find?_isSome.2 ⟨node, List.mem_reverse.2 h, by simp⟩
  exact Option.isSome_iff_exists.1 hsome

theorem mem_identities {test : Node → Bool} {added : List Node} {key : String} :
    key ∈ identities test added ↔ ∃ node ∈ added, test node = true ∧ node.key = key := by
  simp [identities, List.mem_eraseDups, and_assoc]

theorem identities_congr {first second : Node → Bool} {added : List Node}
    (h : ∀ node ∈ added, first node = second node) :
    identities first added = identities second added := by
  rw [identities, identities, List.filter_congr h]

/-- A node that passes comes last unless its identity stands among the others. -/
theorem identities_concat (test : Node → Bool) (added : List Node) (node : Node) :
    identities test (added ++ [node]) =
      if test node = true ∧ node.key ∉ identities test added
      then identities test added ++ [node.key] else identities test added := by
  unfold identities
  rw [List.filter_append, List.map_append, List.eraseDups_append]
  simp only [List.mem_eraseDups]
  generalize (added.filter test).map Node.key = keys
  cases htest : test node with
  | false => simp [htest]
  | true => by_cases hmem : node.key ∈ keys <;> simp [htest, hmem, List.removeAll, List.eraseDups_cons]

namespace Index

variable {κ : Type u} [DecidableEq κ]

/-- Under each key stand the identities of all nodes that had it among theirs when they were
added. -/
def Accumulates (keysOf : Node → List κ) (index : Index κ) (added : List Node) : Prop :=
  ∀ key, index.idsOf key = identities (fun node => key ∈ keysOf node) added

theorem Accumulates.fileAll {keysOf : Node → List κ} {index : Index κ} {added : List Node}
    (h : Accumulates keysOf index added) (node : Node) :
    Accumulates keysOf (index.fileAll (filings keysOf node)) (added ++ [node]) := by
  intro key
  rw [idsOf_fileAll fun entry hentry => (mem_filings.1 hentry).2, h key, identities_concat]
  simp [mem_filings]

end Index

namespace Store

/-- The store holds the last nodes of all that were added, and its indexes keep the filings of all
of them. -/
structure Accumulates (store : Store) (added : List Node) : Prop where
  accepted : ∀ node ∈ added, node.notScalar? = none
  nodes : ∀ key, store.nodes.get? key = current added key
  byType : Index.Accumulates (fun node => [node.type]) store.byType added
  byProperty : Index.Accumulates Node.propertyKeys store.byProperty added

theorem accumulates_empty : Accumulates ∅ [] where
  accepted := nofun
  nodes _ := rfl
  byType _ := rfl
  byProperty _ := rfl

namespace Accumulates

variable {store : Store} {added : List Node}

theorem add (h : store.Accumulates added) {node : Node} (hscalar : node.notScalar? = none) :
    ∃ after, store.add .keep node = .ok after ∧ after.Accumulates (added ++ [node]) := by
  refine ⟨{ store with nodes := store.nodes.insert node.key node }.file node,
    add_eq_ok_iff.2 ⟨hscalar, rfl⟩, ?_⟩
  constructor
  · intro other hother
    rcases List.mem_append.1 hother with hold | hnew
    · exact h.accepted other hold
    · rw [List.mem_singleton.1 hnew]
      exact hscalar
  · intro key
    rw [file_nodes, OrderedMap.get?_insert, h.nodes, current_concat]
  · simp only [file_byType, Node.typeFilings_eq]
    exact h.byType.fileAll node
  · simp only [file_byProperty, Node.propertyFilings_eq]
    exact h.byProperty.fileAll node

/-- Each identity under which a node was added finds the node that was added last. -/
theorem map_resolve (h : store.Accumulates added) (test : Node → Bool) :
    (store.resolve (identities test added)).map some =
      (identities test added).map (current added) := by
  -- Each identity was added, so looking the identities up skips none of them.
  have hfound : ∀ key ∈ identities test added, ∃ node, current added key = some node := by
    intro key hkey
    obtain ⟨node, hnode, -, rfl⟩ := mem_identities.1 hkey
    exact exists_current hnode
  have hcurrent : store.nodes.get? = current added := funext h.nodes
  rw [Store.resolve, hcurrent]
  generalize identities test added = ids at hfound
  induction ids with
  | nil => rfl
  | cons key rest ih =>
      obtain ⟨node, hnode⟩ := hfound key List.mem_cons_self
      rw [List.filterMap_cons, hnode, List.map_cons, List.map_cons, hnode,
        ih fun other hother => hfound other (List.mem_cons_of_mem _ hother)]

theorem nodesOfType (h : store.Accumulates added) (type : String) :
    (store.nodesOfType type).map some =
      (identities (fun node => node.type = type) added).map (current added) := by
  have htype := h.byType type
  simp only [List.mem_singleton, eq_comm (a := type)] at htype
  rw [Store.nodesOfType, htype, h.map_resolve]

theorem nodesWith (h : store.Accumulates added) (name : String) (value : Value) :
    (store.nodesWith name value).map some =
      (identities (Node.hasProperty name value) added).map (current added) := by
  unfold Store.nodesWith
  cases hvalue : value.key? with
  | none =>
      have hnone : identities (Node.hasProperty name value) added = [] := by
        refine List.eq_nil_iff_forall_not_mem.2 fun key hkey => ?_
        obtain ⟨node, hnode, hhas, -⟩ := mem_identities.1 hkey
        rw [Node.hasProperty_eq_false_of_key? (h.accepted node hnode) hvalue] at hhas
        cases hhas
      rw [hnone]
      rfl
  | some key =>
      have htest : ∀ node ∈ added, decide (⟨name, key, none⟩ ∈ node.propertyKeys) =
          node.hasProperty name value := by
        intro node hnode
        rw [Bool.eq_iff_iff, decide_eq_true_iff]
        exact (Node.hasProperty_iff_mem_propertyKeys (h.accepted node hnode) hvalue).symm
      simp only
      rw [h.byProperty, h.map_resolve, identities_congr htest]

theorem filed (h : store.Accumulates added) : store.Filed where
  keyed key node hget := (mem_of_current ((h.nodes key).symm.trans hget)).2
  accepted key node hget := h.accepted node (mem_of_current ((h.nodes key).symm.trans hget)).1
  byType key node hget := by
    obtain ⟨hnode, hkey⟩ := mem_of_current ((h.nodes key).symm.trans hget)
    rw [h.byType]
    exact mem_identities.2 ⟨node, hnode, by simp, hkey⟩
  byProperty key node hget filing hfiling := by
    obtain ⟨hnode, hkey⟩ := mem_of_current ((h.nodes key).symm.trans hget)
    rw [h.byProperty]
    exact mem_identities.2 ⟨node, hnode, decide_eq_true hfiling, hkey⟩

end Accumulates

end Store

end PropertyGraph
