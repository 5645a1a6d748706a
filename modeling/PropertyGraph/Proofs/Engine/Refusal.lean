import PropertyGraph.Proofs.Engine.Accumulation
import PropertyGraph.Proofs.Except
import PropertyGraph.Proofs.Store.Refusal
import PropertyGraph.Proofs.Store.Traversal

/-!
Lists of nodes that are refused. Adding stops at the first node that cannot be filed, and the engine
is the one to which the nodes before it were added; what it holds can still be found, an earlier node
of the refused identity among it.
-/

namespace PropertyGraph

namespace Engine

/-- The node is found by its identity, its type and its values, and over the edges of other nodes
that lead to it; all its filings by type and by property are there. -/
structure Findable (engine : Engine) (node : Node) : Prop where
  byId : engine.store.node? node.id = some node
  byType : node ∈ engine.store.nodesOfType node.type
  byProperty : ∀ name value, node.properties.get? name = some value →
    ¬ value.HasPart Value.IsNan → node ∈ engine.store.nodesWith name value
  byEdge : ∀ source ∈ engine.store.nodes.values, source.key ≠ node.key → ∀ edge ∈ source.edges,
    edge.targetKey = node.key →
      node ∈ engine.traverse source.id [edge.relationship] (some 1)
  typeFilings : ∀ filing ∈ node.typeFilings, filing.2 ∈ engine.store.byType.idsOf filing.1
  propertyFilings : ∀ filing ∈ node.propertyFilings,
    filing.2 ∈ engine.store.byProperty.idsOf filing.1

/-- After every run each stored node can be found. -/
theorem findable_performAll (settings : Settings) (actions : List Action) {key : String}
    {node : Node} (hget : ((start settings).performAll actions).store.nodes.get? key = some node) :
    Findable ((start settings).performAll actions) node := by
  have h := filed_performAll settings actions
  obtain rfl := h.keyed key node hget
  constructor
  · exact hget
  · exact h.mem_nodesOfType hget
  · exact fun name value hvalue hnan => h.mem_nodesWith_of_property hget hvalue hnan
  · intro source hsource hne edge hedge htarget
    obtain ⟨⟨sourceKey, _⟩, hentry, rfl⟩ := List.mem_map.1 hsource
    have hgetSource := OrderedMap.get?_eq_some_iff.2 hentry
    obtain rfl := h.keyed _ _ hgetSource
    -- One step over the edge leads to the node, and no fewer do.
    refine ((Traversal.ring_reach h.keyed 1).mem_iff node).2 ⟨hget, ?_, ?_⟩
    · rw [Traversal.within_zero_iff]
      exact Ne.symm hne
    · exact (Traversal.within_zero_iff.2 rfl).concat
        ⟨_, hgetSource, edge, hedge, List.mem_singleton_self _, htarget⟩
  · intro filing hfiling
    rw [List.mem_singleton.1 hfiling]
    exact h.byType node.key node hget
  · intro filing hfiling
    rw [Node.propertyFilings_eq] at hfiling
    obtain ⟨hkey, hid⟩ := Index.mem_filings.1 hfiling
    rw [hid]
    exact h.byProperty node.key node hget _ hkey

/-- Nodes that are all accepted are added one after another. -/
theorem addAll_of_accepted {nodes : List Node} (h : ∀ node ∈ nodes, node.notScalar? = none)
    (engine : Engine) : engine.addAll nodes = (engine.performAll (nodes.map .add), none) := by
  induction nodes generalizing engine with
  | nil => rfl
  | cons node rest ih =>
      obtain ⟨after, hafter⟩ := Store.exists_add engine.policy engine.store
        (h node List.mem_cons_self)
      have hperform : engine.perform (.add node) = { engine with store := after } := by
        rw [perform_add, hafter]
      have hrest := ih (fun other hother => h other (List.mem_cons_of_mem _ hother))
        (engine.perform (.add node))
      have hcons : engine.addAll (node :: rest) = (engine.perform (.add node)).addAll rest := by
        rw [hperform, addAll, addAll, Store.addAll_cons_of_ok hafter]
        rfl
      exact hcons.trans hrest

/-- The first refused node of a list stops the adding where it stands. -/
theorem addAll_of_refused (engine : Engine) {nodes : List Node} {i : Nat} {node : Node}
    {e : NotScalar} (hnode : nodes[i]? = some node) (hrefused : node.notScalar? = some e)
    (hearlier : ∀ earlier ∈ nodes.take i, earlier.notScalar? = none) :
    engine.addAll nodes = ((engine.addAll (nodes.take i)).1, some e) := by
  obtain ⟨hi, rfl⟩ := List.getElem?_eq_some_iff.1 hnode
  have hsplit : nodes.take i ++ nodes[i] :: nodes.drop (i + 1) = nodes := by
    rw [List.getElem_cons_drop, List.take_append_drop]
  have hstore := Store.addAll_of_refused engine.policy engine.store hearlier hrefused
    (nodes.drop (i + 1))
  rw [hsplit] at hstore
  rw [addAll, hstore]
  rfl

/-- The engine refuses what its store refuses. -/
theorem add_eq_error_iff {engine : Engine} {node : Node} {e : NotScalar} :
    engine.add node = .error e ↔ node.notScalar? = some e := by
  have hstore : engine.store.add engine.policy node = .error e ↔ node.notScalar? = some e :=
    Store.add_eq_error_iff
  rw [← hstore, add, bind_eq_error_iff]
  refine or_iff_left ?_
  rintro ⟨after, -, h⟩
  cases h

theorem exists_add_eq_error_iff {engine : Engine} {node : Node} :
    (∃ e, engine.add node = .error e) ↔ node.Unfileable :=
  (exists_congr fun _ => add_eq_error_iff).trans Node.exists_notScalar?_iff

/-- A node is refused exactly if a part of one of its properties is a list or a mapping. If the first
such node of a list stands at a place, then adding the list leaves the engine as adding the nodes
before that place does, and all that is stored then can still be found. -/
theorem refusal_keeps_additions_before (settings : Settings) (actions : List Action) :
    let engine := (start settings).performAll actions
    (∀ node, (∃ e, engine.add node = .error e) ↔ node.Unfileable) ∧
      (∀ nodes, (engine.addAll nodes).2 = none ↔ ∀ node ∈ nodes, ¬ node.Unfileable) ∧
      ∀ nodes i node, nodes[i]? = some node → node.Unfileable →
        (∀ earlier ∈ nodes.take i, ¬ earlier.Unfileable) →
          let before := (engine.addAll (nodes.take i)).1
          (∃ e, node.RefusedWith e ∧ engine.addAll nodes = (before, some e)) ∧
            ∀ id old, before.store.node? id = some old →
              Findable (engine.addAll nodes).1 old := by
  intro engine
  refine ⟨fun node => exists_add_eq_error_iff, fun nodes => ?_, ?_⟩
  · simp only [← Node.notScalar?_eq_none_iff]
    exact Store.addAll_eq_none_iff
  · intro nodes i node hnode hunfileable hearlier before
    simp only [← Node.notScalar?_eq_none_iff] at hearlier
    obtain ⟨e, he⟩ := Node.exists_notScalar?_iff.2 hunfileable
    have hall : engine.addAll nodes = (before, some e) :=
      engine.addAll_of_refused hnode he hearlier
    refine ⟨⟨e, Node.refusedWith_of_notScalar? he, hall⟩, fun id old hold => ?_⟩
    -- The nodes before the refused one only prolong the run.
    have hbefore : before = (start settings).performAll (actions ++ (nodes.take i).map .add) := by
      rw [performAll_append]
      exact congrArg Prod.fst (addAll_of_accepted hearlier engine)
    rw [hall]
    show Findable before old
    rw [hbefore] at hold ⊢
    exact findable_performAll settings _ hold

/-- A post whose tags hold a list is refused after the post before it was added, and the draft that
it was to replace can be found as before. -/
theorem refusal_of_nested_list :
    let draft : Node := { id := .str "a", type := "draft" }
    let other : Node := { id := .str "b", type := "post" }
    let tags : Value := .tuple [.str "x", .list []]
    let post : Node :=
      { id := .str "a", type := "post", properties := .ofList [("size", .int 2), ("tags", tags)] }
    let engine := (start {}).performAll [.add draft]
    let result := engine.addAll [other, post, draft]
    result = ((engine.addAll [other]).1, some ⟨"tags", "a", tags⟩) ∧
      result.1.store.node? (.str "a") = some draft ∧ Findable result.1 draft := by
  intro draft other tags post engine result
  obtain ⟨-, -, hstops⟩ := refusal_keeps_additions_before {} [.add draft]
  have htags : tags.HasPart Value.IsMutable :=
    .item (List.mem_cons_of_mem _ List.mem_cons_self) (.self trivial)
  have hother : ∀ earlier ∈ [other], ¬ earlier.Unfileable := by
    intro earlier hearlier
    rw [List.mem_singleton.1 hearlier]
    rintro ⟨name, value, hvalue, -⟩
    cases hvalue
  obtain ⟨⟨e, -, hresult⟩, hfindable⟩ :=
    hstops [other, post, draft] 1 post rfl ⟨"tags", tags, rfl, htags⟩ hother
  have he : e = ⟨"tags", "a", tags⟩ := Option.some.inj (congrArg Prod.snd hresult).symm
  rw [he] at hresult
  have hfound : Findable result.1 draft := hfindable (.str "a") draft rfl
  exact ⟨hresult, hfound.byId, hfound⟩

end Engine

end PropertyGraph
