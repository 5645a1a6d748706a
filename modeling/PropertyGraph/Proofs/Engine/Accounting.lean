import Mathlib.Data.List.Perm.Subperm
import Mathlib.Data.List.Induction
import PropertyGraph.Proofs.Engine.Run
import PropertyGraph.Proofs.Query.Key
import PropertyGraph.Proofs.Store.Count

/-!
What the counters and the size of the cache say about a run. Every query that has a key asks the
cache, and is a hit or a miss; an entry is there exactly if the last miss of its key succeeded, and
a hit gives what that miss gave.
-/

namespace PropertyGraph

/-- A query that asked the cache: its key, whether the cache held an answer, and the result. -/
structure Call where
  key : String
  hit : Bool
  result : Except ExecutionError Answer

/-- The keys of the queries of a run since the engine was last cleared, after one more action. A
query without a key does not ask the cache. -/
def askedAfter (asked : List String) : Action → List String
  | .add _ => asked
  | .execute q _ _ =>
    match q.key with
    | .error _ => asked
    | .ok key => asked ++ [key]
  | .clear => []

/-- The keys of the queries of a run since the engine was last cleared. -/
def askedKeys (actions : List Action) : List String := actions.foldl askedAfter []

theorem askedKeys_concat (actions : List Action) (action : Action) :
    askedKeys (actions ++ [action]) = askedAfter (askedKeys actions) action :=
  List.foldl_append

namespace Call

/-- The last miss of a key. -/
def lastMiss? (calls : List Call) (key : String) : Option Call :=
  calls.reverse.find? fun call => !call.hit && call.key = key

/-- The answer that the last miss of a key gave; a failure is none. -/
def lastAnswer? (calls : List Call) (key : String) : Option Answer :=
  (lastMiss? calls key).bind fun call => call.result.toOption

theorem lastMiss?_concat (calls : List Call) (call : Call) (key : String) :
    lastMiss? (calls ++ [call]) key =
      if call.hit = false ∧ call.key = key then some call else lastMiss? calls key := by
  unfold lastMiss?
  rw [List.reverse_append, List.reverse_singleton, List.singleton_append, List.find?_cons]
  cases call.hit with
  | true => simp
  | false => by_cases h : call.key = key <;> simp [h]

theorem lastAnswer?_concat_of_hit {call : Call} (h : call.hit = true) (calls : List Call)
    (key : String) : lastAnswer? (calls ++ [call]) key = lastAnswer? calls key := by
  simp [lastAnswer?, lastMiss?_concat, h]

theorem lastAnswer?_concat_of_miss {call : Call} (h : call.hit = false) (calls : List Call)
    (key : String) :
    lastAnswer? (calls ++ [call]) key =
      if call.key = key then call.result.toOption else lastAnswer? calls key := by
  rw [lastAnswer?, lastMiss?_concat]
  by_cases hkey : call.key = key <;> simp [h, hkey, lastAnswer?]

/-- The answer of the last miss of a key is that of one of the calls. -/
theorem exists_of_lastAnswer? {calls : List Call} {key : String} {answer : Answer}
    (h : lastAnswer? calls key = some answer) :
    ∃ call ∈ calls, call.key = key ∧ call.hit = false ∧ call.result = .ok answer := by
  obtain ⟨call, hlast, hanswer⟩ := Option.bind_eq_some_iff.1 h
  have hcall := List.find?_some hlast
  rw [Bool.and_eq_true, Bool.not_eq_true', decide_eq_true_iff] at hcall
  refine ⟨call, List.mem_reverse.1 (List.mem_of_find?_eq_some hlast), hcall.2, hcall.1, ?_⟩
  cases hresult : call.result with
  | error e => rw [hresult] at hanswer; cases hanswer
  | ok found =>
      rw [hresult] at hanswer
      rw [Option.some.inj hanswer]

end Call

namespace Engine

/-- The calls of a run since the engine was last cleared, after one more action. -/
def callsAfter (engine : Engine) (calls : List Call) : Action → List Call
  | .add _ => calls
  | .execute q now done =>
    match q.key with
    | .error _ => calls
    | .ok key => calls ++
      [⟨key, (engine.cache.get key now).1.isSome, (engine.execute q now done).1⟩]
  | .clear => []

/-- The engine after a run that goes on from some calls, and the calls of it all since the engine
was last cleared. -/
def record (engine : Engine) (calls : List Call) (actions : List Action) : Engine × List Call :=
  actions.foldl (fun now action => (now.1.perform action, now.1.callsAfter now.2 action))
    (engine, calls)

/-- The calls of a run since the engine was last cleared. -/
def calls (engine : Engine) (actions : List Action) : List Call := (engine.record [] actions).2

theorem record_fst (engine : Engine) (calls : List Call) (actions : List Action) :
    (engine.record calls actions).1 = engine.performAll actions := by
  induction actions generalizing engine calls with
  | nil => rfl
  | cons action rest ih => exact ih (engine.perform action) (engine.callsAfter calls action)

/-- A query with a key asks the cache once. -/
theorem record_execute {engine after : Engine} {q : Query} {key : String} {now done : Number}
    {found : Option Answer} {cache : Cache Number Answer} {result : Except ExecutionError Answer}
    (hkey : q.key = .ok key) (hget : engine.cache.get key now = (found, cache))
    (hexecute : engine.execute q now done = (result, after)) (calls : List Call)
    (rest : List Action) :
    engine.record calls (.execute q now done :: rest) =
      after.record (calls ++ [⟨key, found.isSome, result⟩]) rest := by
  have hafter : engine.perform (.execute q now done) = after := congrArg Prod.snd hexecute
  have hcalls : engine.callsAfter calls (.execute q now done) =
      calls ++ [⟨key, found.isSome, result⟩] := by
    simp only [callsAfter, hkey, hget, hexecute]
  rw [record, List.foldl_cons, hafter, hcalls]
  rfl

theorem calls_concat (engine : Engine) (actions : List Action) (action : Action) :
    engine.calls (actions ++ [action]) =
      (engine.performAll actions).callsAfter (engine.calls actions) action := by
  rw [calls, record, List.foldl_append, ← record_fst engine []]
  rfl

theorem map_key_calls (engine : Engine) (actions : List Action) :
    (engine.calls actions).map Call.key = askedKeys actions := by
  induction actions using List.reverseRecOn with
  | nil => rfl
  | append_singleton actions action ih =>
      rw [calls_concat, askedKeys_concat, ← ih]
      cases action with
      | add node => rfl
      | execute q now done =>
          rw [callsAfter, askedAfter]
          cases q.key with
          | error e => rfl
          | ok key => simp
      | clear => rfl

/-- The cache has counted the calls, it holds the answers of the last misses, and each hit was given
the answer of the last miss before it. -/
structure Accounted (engine : Engine) (calls : List Call) : Prop where
  enabled : engine.cache.enabled = true
  hits : engine.cache.hits = calls.countP Call.hit
  misses : engine.cache.misses = calls.countP fun call => !call.hit
  entries : ∀ key,
    (engine.cache.entries.get? key).map CacheEntry.data = Call.lastAnswer? calls key
  served : ∀ before call after, calls = before ++ call :: after → call.hit = true →
    ∃ answer, Call.lastAnswer? before call.key = some answer ∧ call.result = .ok answer

theorem accounted_clear {engine : Engine} (h : engine.cache.enabled = true) :
    Accounted engine.clear [] where
  enabled := h
  hits := rfl
  misses := rfl
  entries _ := rfl
  served before call after hcalls := by simp at hcalls

namespace Accounted

variable {engine : Engine} {calls : List Call} {key : String} {result : Except ExecutionError Answer}

/-- What holds of each call of a list and of one more holds of each call of both. -/
theorem served_concat (h : Accounted engine calls) {call : Call}
    (hcall : call.hit = true →
      ∃ answer, Call.lastAnswer? calls call.key = some answer ∧ call.result = .ok answer) :
    ∀ before other after, calls ++ [call] = before ++ other :: after → other.hit = true →
      ∃ answer, Call.lastAnswer? before other.key = some answer ∧ other.result = .ok answer := by
  intro before other after hcalls hhit
  rcases List.eq_nil_or_concat after with rfl | ⟨rest, last, rfl⟩
  · obtain ⟨rfl, hsame⟩ := List.append_inj' hcalls rfl
    obtain rfl := List.singleton_inj.1 hsame
    exact hcall hhit
  · rw [List.concat_eq_append, ← List.cons_append, ← List.append_assoc] at hcalls
    obtain ⟨hcalls, -⟩ := List.append_inj' hcalls rfl
    exact h.served before other rest hcalls hhit

/-- A hit is counted, and is given what the cache holds. -/
theorem hit (h : Accounted engine calls) {entry : CacheEntry Number Answer}
    (hentry : engine.cache.entries.get? key = some entry) :
    Accounted { engine with cache := { engine.cache with hits := engine.cache.hits + 1 } }
      (calls ++ [⟨key, true, .ok entry.data⟩]) where
  enabled := h.enabled
  hits := by
    show engine.cache.hits + 1 = _
    rw [List.countP_append, h.hits]
    rfl
  misses := by
    show engine.cache.misses = _
    rw [List.countP_append, h.misses]
    rfl
  entries other := by
    rw [Call.lastAnswer?_concat_of_hit rfl]
    exact h.entries other
  served := by
    refine h.served_concat fun _ => ⟨entry.data, ?_, rfl⟩
    rw [← h.entries, hentry]
    rfl

/-- A miss is counted, and leaves an entry of its key exactly if it succeeds. -/
theorem miss (h : Accounted engine calls) {cache : Cache Number Answer}
    (henabled : cache.enabled = engine.cache.enabled) (hhits : cache.hits = engine.cache.hits)
    (hmisses : cache.misses = engine.cache.misses + 1)
    (hentries : ∀ other, (cache.entries.get? other).map CacheEntry.data =
      if key = other then result.toOption
      else (engine.cache.entries.get? other).map CacheEntry.data) :
    Accounted { engine with cache } (calls ++ [⟨key, false, result⟩]) where
  enabled := henabled.trans h.enabled
  hits := by
    show cache.hits = _
    rw [hhits, List.countP_append, h.hits]
    rfl
  misses := by
    show cache.misses = _
    rw [hmisses, List.countP_append, h.misses]
    rfl
  entries other := by
    rw [Call.lastAnswer?_concat_of_miss rfl, ← h.entries]
    exact hentries other
  served := h.served_concat nofun

/-- A query with a key is a hit or a miss. -/
theorem execute (h : Accounted engine calls) {q : Query} (hkey : q.key = .ok key)
    (now done : Number) :
    Accounted (engine.execute q now done).2
      (calls ++ [⟨key, (engine.cache.get key now).1.isSome, (engine.execute q now done).1⟩]) := by
  rcases engine.cache.get_cases key now with ⟨entry, hentry, -, hget⟩ | ⟨cache, hget, -, -⟩
  · simp only [Engine.execute, hkey, hget]
    exact h.hit hentry
  -- A look-up that misses has dropped the entry of its key, so only a success leaves one.
  · obtain ⟨hmissed, -⟩ := Cache.get_of_missed h.enabled (congrArg Prod.fst hget)
    rw [hget] at hmissed
    obtain rfl : cache = _ := hmissed
    cases hevaluate : engine.evaluate q with
    | error e =>
        simp only [Engine.execute, hkey, hget, hevaluate]
        refine h.miss rfl rfl rfl fun other => ?_
        rw [OrderedMap.get?_erase]
        split <;> rfl
    | ok answer =>
        simp only [Engine.execute, hkey, hget, hevaluate, Cache.set, h.enabled, if_true]
        refine h.miss h.enabled.symm rfl rfl fun other => ?_
        rw [OrderedMap.get?_insert, OrderedMap.get?_erase]
        split <;> rfl

theorem perform (h : Accounted engine calls) (action : Action) :
    Accounted (engine.perform action) (engine.callsAfter calls action) := by
  cases action with
  | add node =>
      have hcache := perform_add_cache engine node
      constructor
      · rw [hcache]; exact h.enabled
      · rw [hcache]; exact h.hits
      · rw [hcache]; exact h.misses
      · rw [hcache]; exact h.entries
      · exact h.served
  | execute q now done =>
      rw [callsAfter]
      cases hkey : q.key with
      | error e =>
          have hexecute : engine.execute q now done = (.error (.noKey e), engine) := by
            simp only [Engine.execute, hkey]
          rw [Engine.perform, hexecute]
          exact h
      | ok key => exact h.execute hkey now done
  | clear => exact accounted_clear h.enabled

/-- The keys of the cache are those of which the last miss succeeded. -/
theorem mem_keys_iff (h : Accounted engine calls) :
    key ∈ engine.cache.entries.keys ↔ (Call.lastAnswer? calls key).isSome = true := by
  rw [OrderedMap.mem_keys_iff, ← h.entries, Option.isSome_map, Option.isSome_iff_exists]

/-- There are as many entries as keys of which the last miss succeeded. -/
theorem size_eq (h : Accounted engine calls) :
    engine.cache.size =
      ((calls.map Call.key).filter fun key => (Call.lastAnswer? calls key).isSome).dedup.length := by
  refine (OrderedMap.size_eq_length_keys _).trans ?_
  refine (perm_dedup (OrderedMap.nodup_keys _) fun key => ?_).length_eq
  rw [h.mem_keys_iff, List.mem_filter]
  refine ⟨fun hlast => ⟨?_, hlast⟩, fun hlast => hlast.2⟩
  obtain ⟨answer, hanswer⟩ := Option.isSome_iff_exists.1 hlast
  obtain ⟨call, hcall, rfl, -⟩ := Call.exists_of_lastAnswer? hanswer
  exact List.mem_map_of_mem hcall

/-- There are no more entries than misses that succeeded. -/
theorem size_le (h : Accounted engine calls) :
    engine.cache.size ≤ calls.countP fun call => !call.hit && call.result.isOk := by
  -- Each key of the cache is the key of a miss that succeeded.
  rw [List.countP_eq_length_filter, ← List.length_map Call.key]
  refine (OrderedMap.size_eq_length_keys _).trans_le ?_
  refine ((OrderedMap.nodup_keys _).subperm fun key hkey => ?_).length_le
  obtain ⟨answer, hanswer⟩ := Option.isSome_iff_exists.1 (h.mem_keys_iff.1 hkey)
  obtain ⟨call, hcall, rfl, hmiss, hresult⟩ := Call.exists_of_lastAnswer? hanswer
  refine List.mem_map_of_mem (List.mem_filter.2 ⟨hcall, ?_⟩)
  rw [hmiss, hresult]
  rfl

end Accounted

theorem accounted_performAll {settings : Settings} (henabled : settings.cacheEnabled = true)
    (actions : List Action) :
    Accounted ((start settings).performAll actions) ((start settings).calls actions) := by
  induction actions using List.reverseRecOn with
  | nil =>
      show Accounted (start settings).clear []
      exact accounted_clear henabled
  | append_singleton actions action ih =>
      rw [performAll_concat, calls_concat]
      exact ih.perform action

/-- Since the engine was last cleared every query with a key counts as a hit or as a miss, whether it
succeeds or fails. A hit gives the answer that an earlier miss of its key found, and the cache holds
as many answers as there are keys of which the last miss succeeded, so no more than misses that
succeeded. -/
theorem cache_accounts_for_calls {settings : Settings} (henabled : settings.cacheEnabled = true)
    (actions : List Action) :
    let found := ((start settings).performAll actions).statistics
    let calls := (start settings).calls actions
    calls.map Call.key = askedKeys actions ∧
      found.cacheHits = calls.countP Call.hit ∧
      found.cacheMisses = (calls.countP fun call => !call.hit) ∧
      found.cacheHits + found.cacheMisses = (askedKeys actions).length ∧
      (∀ before call after, calls = before ++ call :: after → call.hit = true →
        ∃ earlier ∈ before, earlier.key = call.key ∧ earlier.hit = false ∧
          ∃ answer, earlier.result = .ok answer ∧ call.result = .ok answer) ∧
      found.cacheSize ≤ (calls.countP fun call => !call.hit && call.result.isOk) ∧
      found.cacheSize =
        ((calls.map Call.key).filter fun key => (Call.lastAnswer? calls key).isSome).dedup.length := by
  intro found calls
  have h : Accounted ((start settings).performAll actions) calls :=
    accounted_performAll henabled actions
  have hkeys : calls.map Call.key = askedKeys actions := map_key_calls (start settings) actions
  refine ⟨hkeys, h.hits, h.misses, ?_, ?_, h.size_le, h.size_eq⟩
  · have hsplit := List.length_eq_countP_add_countP Call.hit (l := calls)
    have hhits : found.cacheHits = calls.countP Call.hit := h.hits
    have hmisses : found.cacheMisses = calls.countP fun call => !call.hit := h.misses
    rw [← hkeys, List.length_map, hhits, hmisses, hsplit]
    simp
  · intro before call after hcalls hhit
    obtain ⟨answer, hlast, hresult⟩ := h.served before call after hcalls hhit
    obtain ⟨earlier, hearlier, hkey, hmiss, hanswer⟩ := Call.exists_of_lastAnswer? hlast
    exact ⟨earlier, hearlier, hkey, hmiss, answer, hanswer, hresult⟩

/-- A sum is found, served once more, and over when a text among the values makes it fail: one hit,
two misses and an empty cache. -/
theorem calls_of_expired_sum :
    let sum : Query := { target := "t", aggregations := .ofList [("s", ⟨.sum, some "p"⟩)] }
    let number : Node := { id := .str "a", type := "t", properties := .ofList [("p", .int 1)] }
    let text : Node := { id := .str "b", type := "t", properties := .ofList [("p", .str "x")] }
    let actions : List Action := [.add number, .execute sum (.int 0) (.int 0),
      .execute sum (.int 300) (.int 300), .add text, .execute sum (.int 301) (.int 301)]
    let answer : Answer := .summary (.ofList [("s", .int 1)])
    let found := ((start {}).performAll actions).statistics
    ({} : Settings).cacheEnabled = true ∧
      (∃ key, (start {}).calls actions = [⟨key, false, .ok answer⟩, ⟨key, true, .ok answer⟩,
        ⟨key, false, .error (.notNumeric ⟨.sum, some "p"⟩ "b" (.str "x"))⟩]) ∧
      found.cacheHits = 1 ∧ found.cacheMisses = 2 ∧ found.cacheSize = 0 := by
  intro sum number text actions answer found
  obtain ⟨key, hkey⟩ : ∃ key, sum.key = .ok key :=
    Query.exists_key_of_values nofun (fun _ _ h => nomatch h) fun _ _ h => nomatch h
  let lifetime : Number := .float ({} : Settings).cacheLifetime
  let entry : CacheEntry Number Answer := ⟨answer, lifetime, .int 0⟩
  let entries : OrderedMap String (CacheEntry Number Answer) := OrderedMap.insert ∅ key entry
  let asked : Cache Number Answer := { lifetime, enabled := true, entries, misses := 1 }
  let one : Engine := (start {}).perform (.add number)
  let both : Engine := one.perform (.add text)
  have hentry : asked.entries.get? key = some entry := by
    show (OrderedMap.insert ∅ key entry).get? key = some entry
    rw [OrderedMap.get?_insert, if_pos rfl]
  have hfresh : entry.isExpired (.int 300) = false := by decide +kernel
  have hexpired : entry.isExpired (.int 301) = true := by decide +kernel
  have hmissed : one.cache.get key (.int 0) =
    (none, { lifetime, enabled := true, misses := 1 }) := rfl
  have hfirst : one.execute sum (.int 0) (.int 0) = (.ok answer, { one with cache := asked }) := by
    have hevaluate : one.evaluate sum = .ok answer := rfl
    simp only [execute, hkey, hmissed, hevaluate]
    rfl
  have hserved : asked.get key (.int 300) = (some answer, { asked with hits := 1 }) := by
    simp [Cache.get, hentry, hfresh, asked, entry]
  have hsecond : { one with cache := asked }.execute sum (.int 300) (.int 300) =
      (.ok answer, { one with cache := { asked with hits := 1 } }) := by
    simp only [execute, hkey, hserved]
  have hover : Cache.get { asked with hits := 1 } key (.int 301) = (none,
      { asked with entries := asked.entries.erase key, hits := 1, misses := 2 }) := by
    simp [Cache.get, hentry, hexpired, asked]
  have hthird : { both with cache := { asked with hits := 1 } }.execute sum (.int 301) (.int 301) =
      (.error (.notNumeric ⟨.sum, some "p"⟩ "b" (.str "x")), { both with
        cache := { asked with entries := asked.entries.erase key, hits := 1, misses := 2 } }) := by
    have hevaluate : { both with cache := { asked with hits := 1 } }.evaluate sum =
      .error (.notNumeric ⟨.sum, some "p"⟩ "b" (.str "x")) := rfl
    simp only [execute, hkey, hover, hevaluate]
  have hcalls : (start {}).calls actions = [⟨key, false, .ok answer⟩, ⟨key, true, .ok answer⟩,
      ⟨key, false, .error (.notNumeric ⟨.sum, some "p"⟩ "b" (.str "x"))⟩] := by
    show (one.record [] (.execute sum (.int 0) (.int 0) :: .execute sum (.int 300) (.int 300) ::
      [.add text, .execute sum (.int 301) (.int 301)])).2 = _
    rw [record_execute hkey hmissed hfirst, record_execute hkey hserved hsecond]
    show (Engine.record { both with cache := { asked with hits := 1 } } _
      [.execute sum (.int 301) (.int 301)]).2 = _
    rw [record_execute hkey hover hthird]
    rfl
  have henabled : ({} : Settings).cacheEnabled = true := rfl
  obtain ⟨-, hhits, hmisses, -, -, -, hsize⟩ := cache_accounts_for_calls henabled actions
  rw [hcalls] at hhits hmisses hsize
  refine ⟨henabled, ⟨key, hcalls⟩, hhits, hmisses, hsize.trans ?_⟩
  simp [Call.lastAnswer?, Call.lastMiss?, Except.toOption]

end Engine

end PropertyGraph
