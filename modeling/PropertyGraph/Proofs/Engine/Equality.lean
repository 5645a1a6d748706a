import PropertyGraph.Proofs.Engine.Answers
import PropertyGraph.Proofs.Engine.Lookup
import PropertyGraph.Proofs.Query.Key

/-!
Three ways to ask for the nodes of a type that hold a property at a value: by a condition, by a
filter, and by a look-up in the property index. In an engine that replaces filings they find the
same nodes in the same order. A value that cannot be filed is held by no node, and a NaN is the same
as no value, so all three find nothing then.
-/

namespace PropertyGraph

namespace Node

variable (node : Node) (name : String) (value : Value)

@[simp] theorem meets_empty : node.meets ∅ = true := rfl

@[simp] theorem passes_empty : node.passes ∅ = true := rfl

@[simp] theorem meets_singleton :
    node.meets (.ofList [(name, value)]) = node.hasProperty name value := by
  simp [meets, hasProperty, OrderedMap.ofList, OrderedMap.insert, OrderedMap.bind]

/-- A filter for equality fails of an absent property, as a condition does. -/
@[simp] theorem passes_equality :
    node.passes (.ofList [(name, ⟨.eq, value⟩)]) = node.hasProperty name value := by
  have hholds : node.passes (.ofList [(name, ⟨.eq, value⟩)]) =
      Comparison.holds ⟨.eq, value⟩ (node.properties.get? name) := by
    simp [passes, OrderedMap.ofList, OrderedMap.insert, OrderedMap.bind]
  rw [hholds, hasProperty]
  cases node.properties.get? name <;> rfl

end Node

namespace Query

/-- The fetch of a type with one condition. -/
def whereEqual (type name : String) (value : Value) : Query :=
  { target := type, conditions := .ofList [(name, value)] }

/-- The fetch of a type with one filter, for equality. -/
def filterEqual (type name : String) (value : Value) : Query :=
  { target := type, filters := .ofList [(name, ⟨.eq, value⟩)] }

variable (type name : String) {value : Value} {json : Json}

theorem exists_key_whereEqual (h : value.toJson .canonical = .ok json) :
    ∃ key, (whereEqual type name value).key = .ok key := by
  refine exists_key_of_values nofun (fun other held hget => ⟨json, ?_⟩) fun _ _ hget => nomatch hget
  rw [OrderedMap.eq_of_get?_singleton hget, h]

theorem exists_key_filterEqual (h : value.toJson .canonical = .ok json) :
    ∃ key, (filterEqual type name value).key = .ok key := by
  refine exists_key_of_values nofun (fun _ _ hget => nomatch hget) fun other c hget => ⟨json, ?_⟩
  rw [OrderedMap.eq_of_get?_singleton hget, h]

end Query

namespace Store

variable (store : Store) (depth : Int)

/-- A fetch that is neither sorted nor limited, and has no aggregates, shows the nodes of its type
that meet its conditions and pass its filters. -/
theorem evaluate_fetch {q : Query} (hoperation : q.operation = .fetch)
    (haggregations : q.aggregations.isEmpty = true) (hsorting : q.sorting = none)
    (hlimit : q.limit = none) :
    store.evaluate depth q = .ok (.rows (((store.nodesOfType q.target).filter fun node =>
      node.meets q.conditions && node.passes q.filters).map Node.toRow)) := by
  have hselect : q.select store depth = .ok (q.fetch store) := by
    rw [Query.select, if_pos hoperation]
  have harrange : q.arrange (q.fetch store) =
      (store.nodesOfType q.target).filter fun node =>
        node.meets q.conditions && node.passes q.filters := by
    rw [Query.arrange, hsorting, hlimit, Query.fetch]
    simp only [Option.elim_none, List.filter_filter, Bool.and_comm]
  rw [evaluate, hselect]
  show q.present (q.arrange (q.fetch store)) = _
  rw [harrange, Query.present, if_pos haggregations]

variable (type name : String) (value : Value)

theorem evaluate_whereEqual : store.evaluate depth (.whereEqual type name value) =
    .ok (.rows (((store.nodesOfType type).filter (Node.hasProperty name value)).map
      Node.toRow)) := by
  rw [evaluate_fetch store depth rfl rfl rfl rfl]
  simp [Query.whereEqual]

theorem evaluate_filterEqual : store.evaluate depth (.filterEqual type name value) =
    .ok (.rows (((store.nodesOfType type).filter (Node.hasProperty name value)).map
      Node.toRow)) := by
  rw [evaluate_fetch store depth rfl rfl rfl rfl]
  simp [Query.filterEqual]

variable {store} {history : List Node}

/-- In a store that reflects a history, the index by property finds what a scan of a type finds. -/
theorem Reflects.filter_nodesWith (h : store.Reflects history) :
    ((store.nodesWith name value).filter fun node => node.type = type) =
      (store.nodesOfType type).filter (Node.hasProperty name value) := by
  rw [h.nodesWith, h.nodesOfType, List.filter_filter, List.filter_filter]
  simp only [Bool.and_comm]

end Store

namespace Engine

/-- After every run, a condition and a filter for equality give as rows what a look-up by property
finds of the type. -/
theorem equality_answers_agree {settings : Settings} (hreplace : settings.replaceEntries = true)
    (huncached : settings.cacheEnabled = false) (actions : List Action) (type name : String)
    {value : Value} {json : Json} (hjson : value.toJson .canonical = .ok json)
    (now done : Number) :
    let engine := (start settings).performAll actions
    let found := (engine.store.nodesWith name value).filter fun node => node.type = type
    (engine.execute (.whereEqual type name value) now done).1 =
        .ok (.rows (found.map Node.toRow)) ∧
      (engine.execute (.filterEqual type name value) now done).1 =
        .ok (.rows (found.map Node.toRow)) := by
  intro engine found
  have hdisabled : engine.cache.enabled = false :=
    (performAll_cache_enabled _ actions).trans huncached
  have hfound : found = (engine.store.nodesOfType type).filter (Node.hasProperty name value) :=
    (reflects_performAll hreplace actions).filter_nodesWith type name value
  obtain ⟨key, hkey⟩ := Query.exists_key_whereEqual type name hjson
  obtain ⟨other, hother⟩ := Query.exists_key_filterEqual type name hjson
  rw [execute_of_disabled hdisabled, execute_of_disabled hdisabled, answerAfresh_of_key hkey,
    answerAfresh_of_key hother, hfound]
  exact ⟨engine.store.evaluate_whereEqual _ type name value,
    engine.store.evaluate_filterEqual _ type name value⟩

/-- Noon at an offset of two hours is found as ten o'clock of universal time, ten o'clock of local
time is not; and of two nodes that one comes first that was not added again. -/
theorem equality_answers_of_instant :
    let day : Date := ⟨2024, 1, 31, by decide⟩
    let ten (offset? : Option UtcOffset) : Value :=
      .dateTime ⟨day, 10, 0, 0, 0, offset?, by decide⟩
    let noon : Value := .dateTime ⟨day, 12, 0, 0, 0, some ⟨7200 * 1000000, by decide⟩, by decide⟩
    let node (id type : String) (value : Value) : Node :=
      { id := .str id, type := type, properties := .ofList [("at", value)] }
    let settings : Settings := { cacheEnabled := false }
    let actions : List Action := [.add (node "a" "t" (.bool true)),
      .add (node "b" "t" (ten none)), .add (node "c" "u" (ten (some .utc))),
      .add (node "d" "t" noon), .add (node "a" "t" (ten (some .utc)))]
    let engine := (start settings).performAll actions
    let value := ten (some .utc)
    let found := [node "d" "t" noon, node "a" "t" (ten (some .utc))]
    settings.replaceEntries = true ∧ settings.cacheEnabled = false ∧
      (∃ json, value.toJson .canonical = .ok json) ∧
      (engine.execute (.whereEqual "t" "at" value) (.int 0) (.int 0)).1 =
        .ok (.rows (found.map Node.toRow)) ∧
      (engine.execute (.filterEqual "t" "at" value) (.int 0) (.int 0)).1 =
        .ok (.rows (found.map Node.toRow)) := by
  intro day ten noon node settings actions engine value found
  have hhistory : latest (additions actions) = [node "b" "t" (ten none),
      node "c" "u" (ten (some .utc)), node "d" "t" noon, node "a" "t" (ten (some .utc))] := by
    rfl
  have hproperty : ∀ id type held,
      (node id type held).hasProperty "at" value = held.same value := by
    intro id type held
    simp [node, Node.hasProperty, OrderedMap.ofList]
  have hnaive : (ten none).same value = false := by decide +kernel
  have hsame : value.same value = true := by decide +kernel
  have hnoon : noon.same value = true := by decide +kernel
  have hfound :
      (engine.store.nodesWith "at" value).filter (fun node => node.type = "t") = found := by
    rw [(reflects_performAll rfl actions).nodesWith, hhistory]
    simp [hproperty, hnaive, hsame, hnoon, value, found, node]
  have hjson : value.toJson .canonical = .ok _ := rfl
  have hreplace : settings.replaceEntries = true := rfl
  obtain ⟨hwhere, hfilter⟩ := equality_answers_agree hreplace rfl actions "t" "at" hjson
    (.int 0) (.int 0)
  rw [hfound] at hwhere hfilter
  exact ⟨rfl, rfl, ⟨_, hjson⟩, hwhere, hfilter⟩

end Engine

end PropertyGraph
