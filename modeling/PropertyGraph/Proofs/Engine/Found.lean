import PropertyGraph.Proofs.Engine.Answers
import PropertyGraph.Proofs.Engine.Lookup
import PropertyGraph.Proofs.Query.Key

/-!
What a query finds: the nodes that it selects and its filters let pass. Queries may find the same and
differ in how they sort, limit and sum it up; then both find something or both fail alike.
-/

namespace PropertyGraph

namespace Query

/-- The nodes that a query selects and its filters let pass. -/
def found (q : Query) (store : Store) (depth : Int) : Except ExecutionError (List Node) := do
  return (← q.select store depth).filter fun node => node.passes q.filters

/-- The answer over the found nodes: they are sorted, limited, and shown or summed up. -/
def answerOver (q : Query) (nodes : List Node) : Except ExecutionError Answer :=
  let sorted := q.sorting.elim nodes fun s => s.sort nodes
  q.present (q.limit.elim sorted fun n => takeLimit n sorted)

theorem evaluate_eq_found_bind (q : Query) (store : Store) (depth : Int) :
    store.evaluate depth q = q.found store depth >>= q.answerOver := by
  unfold Store.evaluate found
  cases q.select store depth <;> rfl

/-- A query without a limit that compares with nothing has a key. -/
theorem exists_key_of_no_values {q : Query} (hlimit : q.limit = none) (hconditions : q.conditions = ∅)
    (hfilters : q.filters = ∅) : ∃ key, q.key = .ok key := by
  refine exists_key_of_values (fun n hget => ?_) (fun key value hget => ?_) fun key c hget => ?_
  · rw [hlimit] at hget
    cases hget
  · rw [hconditions, OrderedMap.get?_empty] at hget
    cases hget
  · rw [hfilters, OrderedMap.get?_empty] at hget
    cases hget

/-- The queries find the same, and if one has a limit that is not written, so has the other. -/
structure FindsAlike (a b : Query) : Prop where
  operation : a.operation = b.operation
  target : a.target = b.target
  conditions : a.conditions = b.conditions
  filters : a.filters = b.filters
  limit : ∀ e, limitToJson a.limit = .error e ↔ limitToJson b.limit = .error e

namespace FindsAlike

variable {a b : Query} (h : FindsAlike a b)

include h

theorem found_eq (store : Store) (depth : Int) : a.found store depth = b.found store depth := by
  unfold found select fetch walk start?
  rw [h.operation, h.target, h.conditions, h.filters]

theorem key_eq_error_iff {e : JsonError} : a.key = .error e ↔ b.key = .error e := by
  simp only [Query.key_eq_error_iff, h.conditions, h.filters, h.limit, exists_and_right,
    exists_ok_congr h.limit]

/-- If the answers over what is found are the same, then so are the answers. -/
theorem answerAfresh_eq {engine : Engine}
    (hover : ∀ nodes, b.found engine.store engine.settings.maxDepth = .ok nodes →
      a.answerOver nodes = b.answerOver nodes) :
    engine.answerAfresh a = engine.answerAfresh b := by
  have hevaluate : engine.evaluate a = engine.evaluate b := by
    rw [Engine.evaluate, Engine.evaluate, evaluate_eq_found_bind, evaluate_eq_found_bind,
      h.found_eq]
    cases hfound : b.found engine.store engine.settings.maxDepth with
    | error e => rfl
    | ok nodes => exact hover nodes hfound
  unfold Engine.answerAfresh
  cases hkey : b.key with
  | error e => rw [h.key_eq_error_iff.2 hkey]
  | ok key =>
      cases hother : a.key with
      | error e => cases hkey.symm.trans (h.key_eq_error_iff.1 hother)
      | ok other => exact hevaluate

/-- Where one of the queries is answered, the answer of the other one is that over what is found. -/
theorem answerAfresh_of_ok {engine : Engine} {answer : Answer}
    (hanswer : engine.answerAfresh a = .ok answer) :
    ∃ nodes, a.found engine.store engine.settings.maxDepth = .ok nodes ∧
      a.answerOver nodes = .ok answer ∧ engine.answerAfresh b = b.answerOver nodes := by
  unfold Engine.answerAfresh at hanswer ⊢
  cases hkey : a.key with
  | error e => rw [hkey] at hanswer; cases hanswer
  | ok key =>
      rw [hkey] at hanswer
      have hanswer : engine.store.evaluate engine.settings.maxDepth a = .ok answer := hanswer
      rw [evaluate_eq_found_bind] at hanswer
      obtain ⟨nodes, hfound, hanswer⟩ := exists_of_bind hanswer
      refine ⟨nodes, hfound, hanswer, ?_⟩
      cases hother : b.key with
      | error e => cases hkey.symm.trans (h.key_eq_error_iff.2 hother)
      | ok other =>
          show engine.store.evaluate engine.settings.maxDepth b = _
          rw [evaluate_eq_found_bind, ← h.found_eq, hfound]
          rfl

end FindsAlike

end Query

namespace Engine

/-- What a fetch finds after a run that replaces filings: of the history of the run, the nodes of its
target that meet its conditions and pass its filters. -/
theorem found_performAll {settings : Settings} (hreplace : settings.replaceEntries = true)
    (actions : List Action) {q : Query} (hfetch : q.operation = .fetch) (depth : Int) :
    q.found ((start settings).performAll actions).store depth =
      .ok ((((latest (additions actions)).filter fun node => node.type = q.target).filter
        fun node => node.meets q.conditions).filter fun node => node.passes q.filters) := by
  rw [Query.found, Query.select, if_pos hfetch, Query.fetch,
    (reflects_performAll hreplace actions).nodesOfType]
  rfl

/-- Without a cache, a query that has a key is answered over what it finds. -/
theorem execute_of_found {engine : Engine} (hdisabled : engine.cache.enabled = false) {q : Query}
    {key : String} (hkey : q.key = .ok key) {nodes : List Node}
    (hfound : q.found engine.store engine.settings.maxDepth = .ok nodes) (now done : Number) :
    (engine.execute q now done).1 = q.answerOver nodes := by
  rw [execute_of_disabled hdisabled, answerAfresh_of_key hkey]
  show engine.store.evaluate engine.settings.maxDepth q = _
  rw [Query.evaluate_eq_found_bind, hfound]
  rfl

end Engine

end PropertyGraph
