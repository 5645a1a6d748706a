import PropertyGraph.Proofs.Engine.Lookup
import PropertyGraph.Proofs.Store.Edge

/-!
The index of edges after any run of an engine that replaces filings. It stays exact as long as no
two stored nodes join to one name, and is wrong from the first state on in which two do: then an
entry holds targets of both, and replacing either node takes away targets of the other.
-/

namespace PropertyGraph

theorem additionsAfter_subset (added : List Node) (action : Action) {node : Node}
    (h : node ∈ additionsAfter added action) : node ∈ added ∨ action = .add node := by
  cases action with
  | add new =>
      rw [additionsAfter] at h
      split at h
      · rcases List.mem_append.1 h with hold | hnew
        · exact .inl hold
        · exact .inr (by rw [List.mem_singleton.1 hnew])
      · exact .inl h
  | execute q now done => exact .inl h
  | clear => exact absurd h List.not_mem_nil

theorem add_mem_of_mem_additions {actions : List Action} {node : Node}
    (h : node ∈ additions actions) : Action.add node ∈ actions := by
  induction actions using List.reverseRecOn with
  | nil => exact absurd h List.not_mem_nil
  | append_singleton actions action ih =>
      rw [additions_concat] at h
      rcases additionsAfter_subset _ _ h with hold | rfl
      · exact List.mem_append_left _ (ih hold)
      · exact List.mem_append_right _ (List.mem_singleton_self _)

namespace Engine

theorem occupied_byEdge_performAll (settings : Settings) (actions : List Action) :
    ((start settings).performAll actions).store.byEdge.Occupied :=
  (occupied_performAll settings actions).byEdge

section

variable {settings : Settings} (hreplace : settings.replaceEntries = true)

include hreplace

/-- Only nodes that were added are stored. -/
theorem add_mem_of_stored {actions : List Action} {node : Node}
    (h : node ∈ ((start settings).performAll actions).store.nodes.values) :
    Action.add node ∈ actions := by
  rw [(reflects_performAll hreplace actions).mem_values_iff] at h
  exact add_mem_of_mem_additions (mem_of_mem_latest h)

theorem labelled_performAll {actions : List Action}
    (hlabels : ∀ node, Action.add node ∈ actions → node.Labelled) :
    ∀ node ∈ ((start settings).performAll actions).store.nodes.values, node.Labelled :=
  fun node hnode => hlabels node (add_mem_of_stored hreplace hnode)

theorem edgesFiled_performAll {actions : List Action}
    (hlabels : ∀ node, Action.add node ∈ actions → node.Labelled)
    (hunshared : ∀ done, done <+: actions →
      ((start settings).performAll done).store.EdgeNamesUnshared) :
    ((start settings).performAll actions).store.EdgesFiled := by
  induction actions using List.reverseRecOn with
  | nil => exact Store.edgesFiled_empty
  | append_singleton actions action ih =>
      have hlabels' : ∀ node, Action.add node ∈ actions → node.Labelled :=
        fun node hnode => hlabels node (List.mem_append_left _ hnode)
      have hprefix := List.prefix_append actions [action]
      have hfiled := ih hlabels' fun done hdone => hunshared done (hdone.trans hprefix)
      have hafter := reflects_performAll hreplace (actions ++ [action])
      rw [performAll_concat] at hafter ⊢
      rcases perform_store_cases ((start settings).performAll actions) action with
        hsame | hempty | ⟨node, rfl, hadd⟩
      · rw [hsame]
        exact hfiled
      · rw [hempty]
        exact Store.edgesFiled_empty
      · rw [policy_eq_replace (by simpa using hreplace)] at hadd
        refine hfiled.add (reflects_performAll hreplace actions)
          (labelled_performAll hreplace hlabels') (hunshared actions hprefix) hadd ?_
        rw [additions_concat, additionsAfter, if_pos (Store.accepted_of_add hadd),
          latest_append] at hafter
        exact hafter

/-- The index of edges is exact, and its size the number of pairs of a source and a relationship, in
all states of a run exactly if in none of them two stored nodes join to one name. -/
theorem edges_exact_throughout_iff {actions : List Action}
    (hlabels : ∀ node, Action.add node ∈ actions → node.Labelled) :
    (∀ done, done <+: actions →
      let engine := (start settings).performAll done
      engine.store.EdgesExact ∧ engine.statistics.edgeCount = engine.store.edgePairs.length) ↔
    ∀ done, done <+: actions → ((start settings).performAll done).store.EdgeNamesUnshared := by
  have hlabels' : ∀ done, done <+: actions → ∀ node, Action.add node ∈ done → node.Labelled :=
    fun done hdone node hnode => hlabels node (hdone.subset hnode)
  constructor
  · intro h done hdone
    exact (h done hdone).1.edgeNamesUnshared (labelled_performAll hreplace (hlabels' done hdone))
  · intro hunshared done hdone
    have hfiled := edgesFiled_performAll hreplace (hlabels' done hdone) fun earlier hearlier =>
      hunshared earlier (hearlier.trans hdone)
    have hexact := hfiled.exact (reflects_performAll hreplace done)
      (occupied_byEdge_performAll settings done)
      (labelled_performAll hreplace (hlabels' done hdone)) (hunshared done hdone)
    exact ⟨hexact, hexact.size⟩

end

/-- No name is shared on the way from a user to an order and its replacement, although identities
hold colons. -/
theorem edges_exact_of_colons :
    let user : Node :=
      { id := .str "user:1", type := "user",
        edges := [{ relationship := "HAS", target := .str "order:101" },
          { relationship := "HAS", target := .str "order:102" }] }
    let order : Node :=
      { id := .str "order:101", type := "order",
        edges := [{ relationship := "OF", target := .str "user:1" }] }
    let fewer : Node :=
      { user with edges := [{ relationship := "HAS", target := .str "order:102" }] }
    let engine := (start {}).performAll [.add user, .add order, .add fewer]
    engine.store.EdgesExact ∧ engine.statistics.edgeCount = 2 := by
  intro user order fewer engine
  have hadded : ∀ node, Action.add node ∈ [.add user, .add order, .add fewer] →
      node = user ∨ node = order ∨ node = fewer := by
    simp
  have hlabels : ∀ node, Action.add node ∈ [.add user, .add order, .add fewer] →
      node.Labelled := by
    intro node hnode
    rcases hadded node hnode with rfl | rfl | rfl <;> simp [Node.Labelled, user, order, fewer]
  have hapart : ∀ first second,
      Node.edgeName "user:1" first ≠ Node.edgeName "order:101" second := by
    intro first second h
    have hhead := congrArg (fun name => name.toList.head?) h
    simp [Node.edgeName] at hhead
  have hunshared : ∀ done, done <+: [.add user, .add order, .add fewer] →
      ((start {}).performAll done).store.EdgeNamesUnshared := by
    intro done hdone node hnode other hother edge hedge relationship hlabel hname
    rcases hadded node (hdone.subset (add_mem_of_stored rfl hnode)) with rfl | rfl | rfl <;>
      rcases hadded other (hdone.subset (add_mem_of_stored rfl hother)) with rfl | rfl | rfl
    all_goals first
      | rfl
      | exact absurd hname (hapart _ _)
      | exact absurd hname.symm (hapart _ _)
  have hreplace : ({} : Settings).replaceEntries = true := rfl
  obtain ⟨hexact, hcount⟩ := (edges_exact_throughout_iff hreplace hlabels).2 hunshared _
    (List.prefix_refl _)
  exact ⟨hexact, hcount.trans rfl⟩

/-- The source `a:b` with `c` and the source `a` with `b:c` join to one name: the two pairs have one
entry, and replacing `a` by a node without edges takes the target of `a:b` away. -/
theorem edges_not_exact :
    let first : Node :=
      { id := .str "a:b", type := "t", edges := [{ relationship := "c", target := .str "x" }] }
    let second : Node :=
      { id := .str "a", type := "t", edges := [{ relationship := "b:c", target := .str "x" }] }
    let plain : Node := { id := .str "a", type := "t" }
    let shared := (start {}).performAll [.add first, .add second]
    let replaced := (start {}).performAll [.add first, .add second, .add plain]
    shared.statistics.edgeCount = 1 ∧ shared.store.edgePairs.length = 2 ∧
      replaced.statistics.edgeCount = 0 ∧ replaced.store.edgePairs.length = 1 ∧
      ¬ replaced.store.EdgesExact := by
  intro first second plain shared replaced
  refine ⟨rfl, rfl, rfl, rfl, ?_⟩
  intro h
  exact absurd h.size (by decide)

end Engine

end PropertyGraph
