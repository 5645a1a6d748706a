import PropertyGraph.Proofs.Engine.Lookup
import PropertyGraph.Proofs.Store.Count

/-!
The statistics of an engine that replaces filings. They are read off the sizes of the indexes, and
are the numbers of what is stored: of nodes, of nodes of each type, of types and of names of
properties.
-/

namespace PropertyGraph

namespace Engine

/-- After any run the stored nodes are the last ones of their identities, and the statistics count
them: all of them, those of each type that occurs, the types and the names of properties. -/
theorem statistics_exact {settings : Settings} (hreplace : settings.replaceEntries = true)
    (actions : List Action) :
    let engine := (start settings).performAll actions
    let stored := engine.store.nodes.values
    let found := engine.statistics
    stored.Perm (latest (additions actions)) ∧
      found.totalNodes = ((additions actions).map Node.key).dedup.length ∧
      (found.nodesByType.map TypeCount.type).Nodup ∧
      (∀ type count, ⟨type, count⟩ ∈ found.nodesByType ↔
        0 < count ∧ count = stored.countP fun node => node.type = type) ∧
      (found.nodesByType.map TypeCount.count).sum = found.totalNodes ∧
      found.typeCount = (stored.map Node.type).dedup.length ∧
      found.propertyCount = (stored.flatMap fun node => node.properties.keys).dedup.length := by
  intro engine stored found
  have h : engine.store.Reflects (latest (additions actions)) := reflects_performAll hreplace actions
  have hoccupied : engine.store.Occupied := occupied_performAll settings actions
  have hstored : stored.Perm (latest (additions actions)) := h.values_perm
  refine ⟨hstored, ?_, ?_, fun type count => ?_, ?_, ?_, ?_⟩
  · refine h.size_eq.trans ?_
    rw [← List.length_map Node.key]
    exact (perm_dedup h.distinct fun _ => mem_map_key_latest).length_eq
  · have htypes : found.nodesByType.map TypeCount.type = engine.store.byType.keys :=
      h.types_typeCounts
    rw [htypes]
    exact OrderedMap.nodup_keys _
  · rw [hstored.countP_eq]
    exact h.mem_typeCounts_iff hoccupied.byType
  · exact (h.sum_typeCounts hoccupied.byType).trans h.size_eq.symm
  · refine (OrderedMap.size_eq_length_keys _).trans ?_
    refine (perm_dedup (OrderedMap.nodup_keys _) fun type => ?_).length_eq
    rw [h.mem_types_iff hoccupied.byType]
    exact (hstored.map Node.type).mem_iff.symm
  · refine (h.length_propertyNames hoccupied.byProperty).trans ?_
    exact (hstored.symm.flatMap_right _).dedup.length_eq

/-- A draft that was added again as a post leaves neither its type nor its score behind, although the
score is no number. -/
theorem statistics_after_replacement :
    let draft : Node :=
      { id := .str "a", type := "draft", properties := .ofList [("score", .float .nan)] }
    let other : Node := { id := .str "b", type := "post", properties := .ofList [("size", .int 2)] }
    let post : Node :=
      { id := .str "a", type := "post", properties := .ofList [("tags", .tuple [.float .nan])] }
    let found := ((start {}).performAll [.add draft, .add other, .add post]).statistics
    ({} : Settings).replaceEntries = true ∧ found.totalNodes = 2 ∧
      (∀ count, ⟨"draft", count⟩ ∉ found.nodesByType) ∧ ⟨"post", 2⟩ ∈ found.nodesByType ∧
      found.typeCount = 1 ∧ found.propertyCount = 2 := by
  intro draft other post found
  have hreplace : ({} : Settings).replaceEntries = true := rfl
  obtain ⟨-, htotal, -, hcounts, -, htypes, hproperties⟩ :=
    statistics_exact hreplace [.add draft, .add other, .add post]
  have hstored : ((start {}).performAll [.add draft, .add other, .add post]).store.nodes.values =
      [post, other] := rfl
  rw [hstored] at hcounts htypes hproperties
  refine ⟨hreplace, htotal.trans ?_, ?_, (hcounts _ _).2 ?_, htypes.trans ?_, hproperties.trans ?_⟩
  · decide
  · rintro count hcount
    obtain ⟨hpos, rfl⟩ := (hcounts _ _).1 hcount
    revert hpos
    decide
  · decide
  · decide
  · decide

end Engine

end PropertyGraph
