import PropertyGraph.Proofs.Engine.Run
import PropertyGraph.Proofs.Query.Key

/-!
Queries that fail. A failure comes from the evaluation alone, after the cache was asked and found
nothing; what it leaves behind is one more miss, and no entry of the query's key. The store and all
other entries are as they were.
-/

namespace PropertyGraph

namespace Engine

/-- With a key, a query fails exactly if no answer to it is found and its evaluation fails. -/
theorem execute_error_iff {engine : Engine} {q : Query} {key : String} (hkey : q.key = .ok key)
    {now done : Number} {e : ExecutionError} :
    (engine.execute q now done).1 = .error e ↔
      (engine.cache.get key now).1 = none ∧ engine.evaluate q = .error e := by
  cases hget : engine.cache.get key now with
  | mk found cache =>
      cases found with
      | some answer => simp only [execute, hkey, hget, reduceCtorEq, false_and]
      | none => cases hevaluate : engine.evaluate q <;> simp [execute, hkey, hget, hevaluate]

/-- Of the cache a failure keeps what the look-up made of it. -/
theorem execute_snd_of_error {engine : Engine} {q : Query} {key : String} (hkey : q.key = .ok key)
    {now done : Number} {e : ExecutionError} (h : (engine.execute q now done).1 = .error e) :
    (engine.execute q now done).2 = { engine with cache := (engine.cache.get key now).2 } := by
  obtain ⟨hmissed, hevaluate⟩ := (execute_error_iff hkey).1 h
  cases hget : engine.cache.get key now with
  | mk found cache =>
      obtain rfl : found = none := by rw [hget] at hmissed; exact hmissed
      simp only [execute, hkey, hget, hevaluate]

/-- What a failed query of a key leaves of an engine that caches answers: all that is stored and all
that is cached for other keys, and one more miss. An answer to the query itself was over, and is
gone. -/
structure OnlyMissed (key : String) (now : Number) (before after : Engine) : Prop where
  settings : after.settings = before.settings
  store : after.store = before.store
  expired : ∀ entry, before.cache.entries.get? key = some entry → entry.isExpired now = true
  absent : after.cache.entries.get? key = none
  others : ∀ other, other ≠ key →
    after.cache.entries.get? other = before.cache.entries.get? other
  hits : after.cache.hits = before.cache.hits
  misses : after.cache.misses = before.cache.misses + 1
  enabled : after.cache.enabled = before.cache.enabled
  lifetime : after.cache.lifetime = before.cache.lifetime

theorem onlyMissed_of_error {engine : Engine} (henabled : engine.cache.enabled = true) {q : Query}
    {key : String} (hkey : q.key = .ok key) {now done : Number} {e : ExecutionError}
    (h : (engine.execute q now done).1 = .error e) :
    OnlyMissed key now engine (engine.execute q now done).2 := by
  obtain ⟨hmissed, -⟩ := (execute_error_iff hkey).1 h
  obtain ⟨hcache, hexpired⟩ := Cache.get_of_missed henabled hmissed
  rw [execute_snd_of_error hkey h, hcache]
  refine ⟨rfl, rfl, hexpired, ?_, fun other hother => ?_, rfl, rfl, rfl, rfl⟩
  · rw [OrderedMap.get?_erase, if_pos rfl]
  · rw [OrderedMap.get?_erase, if_neg (Ne.symm hother)]

/-- A query that fails, for whatever reason and after whatever run, leaves the store as it was and no
entry of its key; without a cache it leaves everything as it was. -/
theorem failure_leaves_no_trace (settings : Settings) (actions : List Action) {q : Query}
    {key : String} (hkey : q.key = .ok key) {now done : Number} {e : ExecutionError}
    (hfailed : (((start settings).performAll actions).execute q now done).1 = .error e) :
    let before := (start settings).performAll actions
    let after := (before.execute q now done).2
    (settings.cacheEnabled = true → OnlyMissed key now before after) ∧
      (settings.cacheEnabled = false → after = before) := by
  intro before after
  have hsame : before.cache.enabled = settings.cacheEnabled :=
    performAll_cache_enabled (start settings) actions
  constructor
  · intro henabled
    exact onlyMissed_of_error (hsame.trans henabled) hkey hfailed
  · intro hdisabled
    have hget := Cache.get_of_disabled (hsame.trans hdisabled) key now
    have hafter : after = { before with cache := (before.cache.get key now).2 } :=
      execute_snd_of_error hkey hfailed
    rw [hafter, hget]

/-- A sum that was found while all values were numbers is over when it is asked for again, and gone
when it fails on a text that was added meanwhile. -/
theorem failure_of_expired_sum :
    let q : Query := { target := "t", aggregations := .ofList [("s", ⟨.sum, some "p"⟩)] }
    let number : Node := { id := .str "a", type := "t", properties := .ofList [("p", .int 1)] }
    let text : Node := { id := .str "b", type := "t", properties := .ofList [("p", .str "x")] }
    let actions : List Action := [.add number, .execute q (.int 0) (.int 0), .add text]
    let before := (start {}).performAll actions
    let result := before.execute q (.int 301) (.int 301)
    ∃ key entry, q.key = .ok key ∧ before.cache.entries.get? key = some entry ∧
      result.1 = .error (.notNumeric ⟨.sum, some "p"⟩ "b" (.str "x")) ∧
      OnlyMissed key (.int 301) before result.2 := by
  intro q number text actions before result
  obtain ⟨key, hkey⟩ : ∃ key, q.key = .ok key :=
    Query.exists_key_of_values nofun (fun _ _ h => nomatch h) fun _ _ h => nomatch h
  let counted : Engine := (start {}).perform (.add number)
  have hevaluate : counted.evaluate q = .ok (.summary (.ofList [("s", .int 1)])) := rfl
  have hmissed : counted.cache.get key (.int 0) = (none, { counted.cache with misses := 1 }) := rfl
  let entry : CacheEntry Number Answer :=
    ⟨.summary (.ofList [("s", .int 1)]), .float ({} : Settings).cacheLifetime, .int 0⟩
  have hbefore : before =
      { counted.perform (.add text) with
        cache := { counted.cache with entries := OrderedMap.insert ∅ key entry, misses := 1 } } := by
    show ((counted.perform (.execute q (.int 0) (.int 0))).perform (.add text)) = _
    have hexecuted : counted.perform (.execute q (.int 0) (.int 0)) =
        { counted with
          cache := { counted.cache with entries := OrderedMap.insert ∅ key entry, misses := 1 } } := by
      simp only [perform, execute, hkey, hmissed, hevaluate]
      rfl
    rw [hexecuted]
    rfl
  have hentry : before.cache.entries.get? key = some entry := by
    rw [hbefore]
    exact (OrderedMap.get?_insert _ _ _ _).trans (if_pos rfl)
  have hexpired : entry.isExpired (.int 301) = true := by decide +kernel
  have hfailed : result.1 = .error (.notNumeric ⟨.sum, some "p"⟩ "b" (.str "x")) := by
    refine (execute_error_iff hkey).2 ⟨?_, by rw [hbefore]; rfl⟩
    exact Cache.get_of_expired hentry hexpired
  exact ⟨key, entry, hkey, hentry, hfailed,
    (failure_leaves_no_trace {} actions hkey hfailed).1 rfl⟩

end Engine

end PropertyGraph
