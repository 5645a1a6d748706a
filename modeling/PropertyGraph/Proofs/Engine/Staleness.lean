import Mathlib.Data.List.Induction
import PropertyGraph.Proofs.Engine.Run
import PropertyGraph.Proofs.Number.Order
import PropertyGraph.Proofs.OrderedMap

/-!
How old an answer can be. Cached answers are not withdrawn when nodes are added, so an answer may
describe an earlier store; but it is one that was evaluated, for a query of the same key, no longer
ago than the lifetime of the cache and after the last clearing.
-/

namespace PropertyGraph

/-- What the clock showed during a run, in the order in which it was read. -/
def readings (actions : List Action) : List Number :=
  actions.flatMap fun
    | .execute _ now done => [now, done]
    | _ => []

/-- The clock shows finite numbers and never goes back. -/
structure ClockSteady (actions : List Action) : Prop where
  finite : ∀ time ∈ readings actions, time.isFinite = true
  forward : (readings actions).Pairwise (· ≤ ·)

@[simp] theorem readings_append (first second : List Action) :
    readings (first ++ second) = readings first ++ readings second :=
  List.flatMap_append

@[simp] theorem readings_execute (q : Query) (now done : Number) (rest : List Action) :
    readings (.execute q now done :: rest) = now :: done :: readings rest :=
  rfl

namespace ClockSteady

theorem done_le {before after rest : List Action} {q₀ q : Query} {now₀ done₀ now done : Number}
    (h : ClockSteady (before ++ .execute q₀ now₀ done₀ :: after ++ .execute q now done :: rest)) :
    done₀ ≤ now := by
  have hforward := h.forward
  rw [readings_append, List.pairwise_append] at hforward
  exact hforward.2.2 done₀ (by simp) now (by simp)

theorem isFinite_of_execute {before after : List Action} {q : Query} {now done : Number}
    (h : ClockSteady (before ++ .execute q now done :: after)) :
    now.isFinite = true ∧ done.isFinite = true :=
  ⟨h.finite now (by simp), h.finite done (by simp)⟩

end ClockSteady

/-- The entry under a key was stored by an evaluation of the run, with no clearing since. -/
def Stored (settings : Settings) (actions : List Action) (key : String)
    (entry : CacheEntry Number Answer) : Prop :=
  entry.lifetime = .float settings.cacheLifetime ∧
    ∃ before q now after, actions = before ++ .execute q now entry.stored :: after ∧
      (∀ action ∈ after, action ≠ .clear) ∧ q.key = .ok key ∧
      ((Engine.start settings).performAll before).evaluate q = .ok entry.data

theorem Stored.concat {settings : Settings} {actions : List Action} {key : String}
    {entry : CacheEntry Number Answer} (h : Stored settings actions key entry) {action : Action}
    (haction : action ≠ .clear) : Stored settings (actions ++ [action]) key entry := by
  obtain ⟨hlifetime, before, q, now, after, rfl, hclear, hkey, hevaluate⟩ := h
  refine ⟨hlifetime, before, q, now, after ++ [action], by simp, ?_, hkey, hevaluate⟩
  intro other hother
  rcases List.mem_append.1 hother with hafter | hlast
  · exact hclear other hafter
  · rw [List.mem_singleton.1 hlast]
    exact haction

/-- An evaluation that is cached is the latest action of the run. -/
theorem Stored.of_evaluate {settings : Settings} {actions : List Action} {q : Query}
    {now done : Number} {key : String} {answer : Answer} (hkey : q.key = .ok key)
    (hevaluate : ((Engine.start settings).performAll actions).evaluate q = .ok answer) :
    Stored settings (actions ++ [.execute q now done]) key
      ⟨answer, .float settings.cacheLifetime, done⟩ :=
  ⟨rfl, actions, q, now, [], rfl, fun _ h => absurd h List.not_mem_nil, hkey, hevaluate⟩

namespace Engine

/-- All entries of the cache come from evaluations of the run since the last clearing. -/
structure CacheStored (settings : Settings) (actions : List Action) (engine : Engine) : Prop where
  lifetime : engine.cache.lifetime = .float settings.cacheLifetime
  entries : ∀ key entry, engine.cache.entries.get? key = some entry →
    Stored settings actions key entry

theorem cacheStored_performAll (settings : Settings) (actions : List Action) :
    CacheStored settings actions ((start settings).performAll actions) := by
  -- From the end of the run: an entry was there before the last action, or that action stored it.
  induction actions using List.reverseRecOn with
  | nil => exact ⟨rfl, fun _ _ h => by cases h⟩
  | append_singleton actions action ih =>
      rw [performAll_concat]
      cases action with
      | add node =>
          constructor
          · rw [perform_add_cache]
            exact ih.lifetime
          · intro key entry hentry
            rw [perform_add_cache] at hentry
            exact (ih.entries key entry hentry).concat Action.noConfusion
      | execute q now done =>
          have hkept : ∀ key entry,
              ((start settings).performAll actions).cache.entries.get? key = some entry →
                Stored settings (actions ++ [.execute q now done]) key entry :=
            fun key entry hentry => (ih.entries key entry hentry).concat Action.noConfusion
          rw [perform]
          rcases execute_cases ((start settings).performAll actions) q now done with
            ⟨e, -, hexecute⟩ | ⟨key, hkey, ⟨entry, -, -, hexecute⟩ |
              ⟨cache, -, hlifetime, hentries, ⟨e, -, hexecute⟩ | ⟨answer, hevaluate, hexecute⟩⟩⟩
          · rw [hexecute]
            exact ⟨ih.lifetime, hkept⟩
          · rw [hexecute]
            exact ⟨ih.lifetime, hkept⟩
          · rw [hexecute]
            exact ⟨hlifetime.trans ih.lifetime,
              fun other entry hentry => hkept other entry (hentries other entry hentry)⟩
          · rw [hexecute]
            refine ⟨by simpa using hlifetime.trans ih.lifetime, ?_⟩
            intro other entry hentry
            rcases Cache.get?_set hentry with ⟨rfl, rfl⟩ | hold
            · rw [hlifetime, ih.lifetime]
              exact Stored.of_evaluate hkey hevaluate
            · exact hkept other entry (hentries other entry hold)
      | clear => exact ⟨ih.lifetime, fun _ _ h => by cases h⟩

/-- An answer is what a query of the same key evaluated to in some earlier state of the run, or in
the present one; since then the engine was not cleared, and no more time has passed than the cache
keeps answers. -/
theorem answer_evaluated_within_lifetime {settings : Settings}
    (hlifetime : Number.int 0 ≤ .float settings.cacheLifetime) {actions : List Action} {q : Query}
    {now done : Number} (hclock : ClockSteady (actions ++ [.execute q now done])) {answer : Answer}
    (hanswer : (((start settings).performAll actions).execute q now done).1 = .ok answer) :
    ∃ before q₀ now₀ done₀ after,
      actions ++ [.execute q now done] = before ++ .execute q₀ now₀ done₀ :: after ∧
        (∀ action ∈ after, action ≠ .clear) ∧
        (∃ key, q.key = .ok key ∧ q₀.key = .ok key) ∧
        ((start settings).performAll before).evaluate q₀ = .ok answer ∧
        (after = [] ∨ (done₀ ≤ now ∧ now - done₀ ≤ .float settings.cacheLifetime)) := by
  rcases execute_cases ((start settings).performAll actions) q now done with
    ⟨e, -, hexecute⟩ | ⟨key, hkey, ⟨entry, hentry, hfresh, hexecute⟩ |
      ⟨cache, -, -, -, ⟨e, -, hexecute⟩ | ⟨fresh, hevaluate, hexecute⟩⟩⟩
  · rw [hexecute] at hanswer
    cases hanswer
  · -- The answer was cached, and its entry tells which evaluation it comes from.
    rw [hexecute] at hanswer
    obtain rfl := Except.ok.inj hanswer
    obtain ⟨hentryLifetime, before, q₀, now₀, after, rfl, hclear, hkey₀, hevaluate⟩ :=
      (cacheStored_performAll settings actions).entries key entry hentry
    refine ⟨before, q₀, now₀, entry.stored, after ++ [.execute q now done], by simp, ?_,
      ⟨key, hkey, hkey₀⟩, hevaluate, .inr ⟨hclock.done_le, ?_⟩⟩
    · intro action haction
      rcases List.mem_append.1 haction with hafter | hlast
      · exact hclear action hafter
      · rw [List.mem_singleton.1 hlast]
        exact Action.noConfusion
    · have hnow := (hclock.isFinite_of_execute).1
      have hstored := hclock.finite entry.stored (by simp)
      have hnotExpired : ¬ Number.float settings.cacheLifetime < now - entry.stored := by
        rw [← hentryLifetime]
        simpa [CacheEntry.isExpired] using hfresh
      exact Number.le_of_not_lt (Number.hasPlace_right_of_le hlifetime)
        (Number.sub_hasPlace hnow hstored) hnotExpired
  · rw [hexecute] at hanswer
    cases hanswer
  · rw [hexecute] at hanswer
    obtain rfl := Except.ok.inj hanswer
    exact ⟨actions, q, now, done, [], rfl, fun _ h => absurd h List.not_mem_nil,
      ⟨key, hkey, hkey⟩, hevaluate, .inl rfl⟩

/-- After five minutes to the second the answer is still that of the store before the second post
was added. -/
theorem answer_of_earlier_store :
    let q : Query := { target := "post" }
    let first : Node := { id := .str "a", type := "post" }
    let second : Node := { id := .str "b", type := "post" }
    let actions : List Action := [.add first, .execute q (.int 0) (.int 0), .add second]
    let engine := (start {}).performAll actions
    Number.int 0 ≤ .float ({} : Settings).cacheLifetime ∧
      ClockSteady (actions ++ [.execute q (.int 300) (.int 300)]) ∧
      (engine.execute q (.int 300) (.int 300)).1 = .ok (.rows [first.toRow]) ∧
      ∃ before q₀ now₀ done₀ after,
        actions ++ [.execute q (.int 300) (.int 300)] =
            before ++ .execute q₀ now₀ done₀ :: after ∧
          (∀ action ∈ after, action ≠ .clear) ∧
          (∃ key, q.key = .ok key ∧ q₀.key = .ok key) ∧
          ((start {}).performAll before).evaluate q₀ = .ok (.rows [first.toRow]) ∧
          (after = [] ∨
            (done₀ ≤ .int 300 ∧ .int 300 - done₀ ≤ .float ({} : Settings).cacheLifetime)) := by
  intro q first second actions engine
  have hlifetime : Number.int 0 ≤ .float ({} : Settings).cacheLifetime := by decide +kernel
  have hclock : ClockSteady (actions ++ [.execute q (.int 300) (.int 300)]) :=
    ⟨by decide +kernel, by decide +kernel⟩
  obtain ⟨key, hkey⟩ : ∃ key, q.key = .ok key := by
    simp [q, Query.key, Query.toJson, Query.clauseToJson, Query.limitToJson, OrderedMap.isEmpty,
      bind, Except.bind, pure, Except.pure]
  let empty : Cache Number Answer :=
    { lifetime := .float ({} : Settings).cacheLifetime, enabled := true }
  have hcache : engine.cache =
      { empty with
        entries := OrderedMap.insert ∅ key ⟨.rows [first.toRow], empty.lifetime, .int 0⟩
        misses := 1 } := by
    have hevaluate : ((start {}).performAll [.add first]).evaluate q = .ok (.rows [first.toRow]) :=
      rfl
    have hmissed : ((start {}).performAll [.add first]).cache.get key (.int 0) =
        (none, { empty with misses := 1 }) := rfl
    have hperform := perform_add_cache
      (((start {}).performAll [.add first]).perform (.execute q (.int 0) (.int 0))) second
    refine hperform.trans ?_
    simp only [perform, execute, hkey, hmissed, hevaluate]
    rfl
  have hanswer : (engine.execute q (.int 300) (.int 300)).1 = .ok (.rows [first.toRow]) := by
    have hfresh : CacheEntry.isExpired (⟨.rows [first.toRow], empty.lifetime, .int 0⟩ :
        CacheEntry Number Answer) (.int 300) = false := by
      decide +kernel
    simp [execute, hkey, hcache, Cache.get, empty, hfresh]
  exact ⟨hlifetime, hclock, hanswer, answer_evaluated_within_lifetime hlifetime hclock hanswer⟩

end Engine

end PropertyGraph
