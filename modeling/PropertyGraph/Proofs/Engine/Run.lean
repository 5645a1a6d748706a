import PropertyGraph.Engine.Basic
import PropertyGraph.Proofs.Cache
import PropertyGraph.Proofs.Store.Occupied

/-!
Runs of an engine: what is asked of it, one action after another. Nodes and queries do not meddle
with each other's state: adding leaves the cache alone, a query leaves the store alone, and the
settings stay what they were.
-/

namespace PropertyGraph

/-- What is asked of an engine; a query comes with the times at which it is asked and answered. -/
inductive Action where
  | add (node : Node)
  | execute (q : Query) (now done : Number)
  | clear

namespace Engine

/-- The engine after an action. A node that is refused changes nothing. -/
def perform (engine : Engine) : Action → Engine
  | .add node =>
    match engine.add node with
    | .ok engine => engine
    | .error _ => engine
  | .execute q now done => (engine.execute q now done).2
  | .clear => engine.clear

/-- The engine after a run. -/
def performAll (engine : Engine) (actions : List Action) : Engine :=
  actions.foldl perform engine

@[simp] theorem start_settings (settings : Settings) : (start settings).settings = settings := rfl

@[simp] theorem start_store (settings : Settings) : (start settings).store = ∅ := rfl

@[simp] theorem performAll_nil (engine : Engine) : engine.performAll [] = engine := rfl

theorem performAll_append (engine : Engine) (first second : List Action) :
    engine.performAll (first ++ second) = (engine.performAll first).performAll second :=
  List.foldl_append

theorem performAll_concat (engine : Engine) (actions : List Action) (action : Action) :
    engine.performAll (actions ++ [action]) = (engine.performAll actions).perform action := by
  rw [performAll_append]
  rfl

/-- The engine after a query: only its cache can differ. -/
theorem execute_snd (engine : Engine) (q : Query) (now done : Number) :
    (engine.execute q now done).2 =
      { engine with cache := (engine.execute q now done).2.cache } := by
  unfold execute
  split
  · rfl
  · split
    · rfl
    · split <;> rfl

/-- A query without a key fails; otherwise its answer is a cached one, or it is evaluated, and only
a success is cached. -/
theorem execute_cases (engine : Engine) (q : Query) (now done : Number) :
    (∃ e, q.key = .error e ∧ engine.execute q now done = (.error (.noKey e), engine)) ∨
      ∃ key, q.key = .ok key ∧
        ((∃ entry, engine.cache.entries.get? key = some entry ∧ entry.isExpired now = false ∧
          engine.execute q now done = (.ok entry.data,
            { engine with cache := { engine.cache with hits := engine.cache.hits + 1 } })) ∨
        ∃ cache, engine.cache.get key now = (none, cache) ∧
          cache.lifetime = engine.cache.lifetime ∧
          (∀ other entry, cache.entries.get? other = some entry →
            engine.cache.entries.get? other = some entry) ∧
          ((∃ e, engine.evaluate q = .error e ∧
            engine.execute q now done = (.error e, { engine with cache })) ∨
          ∃ answer, engine.evaluate q = .ok answer ∧
            engine.execute q now done =
              (.ok answer, { engine with cache := cache.set key answer done }))) := by
  unfold execute
  cases hkey : q.key with
  | error e => exact .inl ⟨e, rfl, rfl⟩
  | ok key =>
      refine .inr ⟨key, rfl, ?_⟩
      rcases engine.cache.get_cases key now with
        ⟨entry, hentry, hfresh, hget⟩ | ⟨cache, hget, hlifetime, hentries⟩
      · exact .inl ⟨entry, hentry, hfresh, by simp only [hget]⟩
      · refine .inr ⟨cache, hget, hlifetime, hentries, ?_⟩
        cases hevaluate : engine.evaluate q with
        | error e => exact .inl ⟨e, rfl, by simp only [hget]⟩
        | ok answer => exact .inr ⟨answer, rfl, by simp only [hget]⟩

theorem perform_add (engine : Engine) (node : Node) :
    engine.perform (.add node) =
      match engine.store.add engine.policy node with
      | .ok store => { engine with store }
      | .error _ => engine := by
  cases h : engine.store.add engine.policy node with
  | error e =>
      have hadd : engine.add node = .error e := by rw [add, h]; rfl
      rw [perform, hadd]
  | ok store =>
      have hadd : engine.add node = .ok { engine with store } := by rw [add, h]; rfl
      rw [perform, hadd]

@[simp] theorem perform_add_cache (engine : Engine) (node : Node) :
    (engine.perform (.add node)).cache = engine.cache := by
  rw [perform_add]
  split <;> rfl

@[simp] theorem perform_execute_store (engine : Engine) (q : Query) (now done : Number) :
    (engine.perform (.execute q now done)).store = engine.store := by
  rw [perform, execute_snd]

@[simp] theorem perform_settings (engine : Engine) (action : Action) :
    (engine.perform action).settings = engine.settings := by
  cases action with
  | add node =>
      rw [perform_add]
      split <;> rfl
  | execute q now done => rw [perform, execute_snd]
  | clear => rfl

@[simp] theorem performAll_settings (engine : Engine) (actions : List Action) :
    (engine.performAll actions).settings = engine.settings := by
  induction actions generalizing engine with
  | nil => rfl
  | cons action rest ih => exact (ih _).trans (perform_settings engine action)

/-- Whether there is a cache is settled when the engine starts. -/
@[simp] theorem perform_cache_enabled (engine : Engine) (action : Action) :
    (engine.perform action).cache.enabled = engine.cache.enabled := by
  cases action with
  | add node => rw [perform_add_cache]
  | execute q now done =>
      rw [perform, execute]
      split
      · rfl
      · next key _ =>
        have hget := engine.cache.get_enabled key now
        split
        · next hfound => rw [hfound] at hget; exact hget
        · next hmissing =>
          rw [hmissing] at hget
          split
          · exact hget
          · exact (Cache.set_enabled _ _ _ _ _).trans hget
  | clear => rfl

@[simp] theorem performAll_cache_enabled (engine : Engine) (actions : List Action) :
    (engine.performAll actions).cache.enabled = engine.cache.enabled := by
  induction actions generalizing engine with
  | nil => rfl
  | cons action rest ih => exact (ih _).trans (perform_cache_enabled engine action)

/-- An action leaves the store as it is, empties it, or adds a node that is accepted. -/
theorem perform_store_cases (engine : Engine) (action : Action) :
    (engine.perform action).store = engine.store ∨ (engine.perform action).store = ∅ ∨
      ∃ node, action = .add node ∧
        engine.store.add engine.policy node = .ok (engine.perform action).store := by
  cases action with
  | add node =>
      rw [perform_add]
      cases h : engine.store.add engine.policy node with
      | error e => exact .inl rfl
      | ok store => exact .inr (.inr ⟨node, rfl, h⟩)
  | execute q now done => exact .inl (perform_execute_store engine q now done)
  | clear => exact .inr (.inl rfl)

/-- What every action keeps holds after every run. -/
theorem performAll_induction {motive : Engine → Prop} {engine : Engine} (hstart : motive engine)
    (hstep : ∀ engine action, motive engine → motive (engine.perform action))
    (actions : List Action) : motive (engine.performAll actions) := by
  induction actions generalizing engine with
  | nil => exact hstart
  | cons action rest ih => exact ih (hstep engine action hstart)

/-- After every run each key of the indexes has something filed under it. -/
theorem occupied_performAll (settings : Settings) (actions : List Action) :
    ((start settings).performAll actions).store.Occupied := by
  refine performAll_induction (motive := fun engine => engine.store.Occupied)
    Store.occupied_empty ?_ actions
  intro engine action h
  rcases perform_store_cases engine action with hsame | hempty | ⟨node, -, hadd⟩
  · rw [hsame]
    exact h
  · rw [hempty]
    exact Store.occupied_empty
  · exact h.add hadd

end Engine

/-- The accepted nodes since the last clearing, after one more action. -/
def additionsAfter (added : List Node) : Action → List Node
  | .add node => if node.notScalar?.isNone then added ++ [node] else added
  | .execute _ _ _ => added
  | .clear => []

/-- The accepted nodes of a run since the engine was last cleared, in the order in which they were
added. -/
def additions (actions : List Action) : List Node := actions.foldl additionsAfter []

theorem additions_concat (actions : List Action) (action : Action) :
    additions (actions ++ [action]) = additionsAfter (additions actions) action :=
  List.foldl_append

end PropertyGraph
