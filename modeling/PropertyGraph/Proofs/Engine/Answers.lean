import PropertyGraph.Proofs.Engine.Run

/-!
The answers to a sequence of queries, one asked after another while the clock stands still. Without
a cache each query is evaluated; with one the first answer that is found to a key serves all queries
of that key, unless answers are over as soon as they are cached.
-/

namespace PropertyGraph

namespace Engine

/-- An engine over a store, nothing cached. -/
def ofStore (settings : Settings) (store : Store) : Engine := { start settings with store }

/-- The answers to queries that are asked one after another at one time. -/
def answers (engine : Engine) (now : Number) : List Query → List (Except ExecutionError Answer)
  | [] => []
  | q :: rest => (engine.execute q now).1 :: (engine.execute q now).2.answers now rest

/-- The answer of an engine that caches nothing. -/
def answerAfresh (engine : Engine) (q : Query) : Except ExecutionError Answer :=
  match q.key with
  | .error e => .error (.noKey e)
  | .ok _ => engine.evaluate q

/-- The first answer that was found to a query of the key. -/
def firstAnswer (engine : Engine) (key : String) (asked : List Query) : Option Answer :=
  asked.findSome? fun q =>
    match q.key with
    | .error _ => none
    | .ok other => if other = key then (engine.evaluate q).toOption else none

/-- The answer of an engine that has cached what it was asked. -/
def answerAfter (engine : Engine) (asked : List Query) (q : Query) :
    Except ExecutionError Answer :=
  match q.key with
  | .error e => .error (.noKey e)
  | .ok key =>
    match engine.firstAnswer key asked with
    | some answer => .ok answer
    | none => engine.evaluate q

theorem answerAfresh_of_key {engine : Engine} {q : Query} {key : String} (hkey : q.key = .ok key) :
    engine.answerAfresh q = engine.evaluate q := by
  rw [answerAfresh, hkey]

theorem answerAfter_of_some {engine : Engine} {asked : List Query} {q : Query} {key : String}
    {answer : Answer} (hkey : q.key = .ok key)
    (hfirst : engine.firstAnswer key asked = some answer) :
    engine.answerAfter asked q = .ok answer := by
  simp only [answerAfter, hkey, hfirst]

theorem answerAfter_of_none {engine : Engine} {asked : List Query} {q : Query} {key : String}
    (hkey : q.key = .ok key) (hfirst : engine.firstAnswer key asked = none) :
    engine.answerAfter asked q = engine.evaluate q := by
  simp only [answerAfter, hkey, hfirst]

theorem execute_of_disabled {engine : Engine} (h : engine.cache.enabled = false) (q : Query)
    (now done : Number) : engine.execute q now done = (engine.answerAfresh q, engine) := by
  unfold execute answerAfresh
  cases hkey : q.key with
  | error e => rfl
  | ok key =>
      have hget : engine.cache.get key now = (none, engine.cache) := by simp [Cache.get, h]
      simp only [hget]
      cases hevaluate : engine.evaluate q with
      | error e => rfl
      | ok answer => simp [Cache.set, h]

theorem answers_of_disabled {engine : Engine} (h : engine.cache.enabled = false) (now : Number)
    (queries : List Query) : engine.answers now queries = queries.map engine.answerAfresh := by
  induction queries with
  | nil => rfl
  | cons q rest ih => rw [answers, execute_of_disabled h, ih, List.map_cons]

theorem firstAnswer_concat (engine : Engine) (key : String) (asked : List Query) (q : Query) :
    engine.firstAnswer key (asked ++ [q]) =
      (engine.firstAnswer key asked).or (engine.firstAnswer key [q]) :=
  List.findSome?_append

theorem firstAnswer_singleton {engine : Engine} {q : Query} {key : String} (hkey : q.key = .ok key)
    (other : String) :
    engine.firstAnswer other [q] = if key = other then (engine.evaluate q).toOption else none := by
  rw [firstAnswer, List.findSome?_singleton, hkey]

theorem firstAnswer_of_error {engine : Engine} {q : Query} {e : JsonError}
    (hkey : q.key = .error e) (other : String) : engine.firstAnswer other [q] = none := by
  rw [firstAnswer, List.findSome?_singleton, hkey]

/-- A key that has an answer keeps it. -/
theorem firstAnswer_concat_of_some {engine : Engine} {asked : List Query} {q : Query}
    {key : String} {answer : Answer} (hkey : q.key = .ok key)
    (hfirst : engine.firstAnswer key asked = some answer) (other : String) :
    engine.firstAnswer other (asked ++ [q]) = engine.firstAnswer other asked := by
  rw [firstAnswer_concat, firstAnswer_singleton hkey]
  split
  case isTrue hsame => rw [← hsame, hfirst, Option.some_or]
  case isFalse => exact Option.or_none

/-- A failure is no answer. -/
theorem firstAnswer_concat_of_error {engine : Engine} {asked : List Query} {q : Query}
    {e : ExecutionError} (hfailed : engine.answerAfresh q = .error e) (other : String) :
    engine.firstAnswer other (asked ++ [q]) = engine.firstAnswer other asked := by
  have hnone : engine.firstAnswer other [q] = none := by
    cases hkey : q.key with
    | error e => exact firstAnswer_of_error hkey other
    | ok key =>
        rw [answerAfresh_of_key hkey] at hfailed
        rw [firstAnswer_singleton hkey, hfailed]
        exact ite_self none
  rw [firstAnswer_concat, hnone, Option.or_none]

/-- The cache holds the first answer that was found to each key, all stored just now. -/
structure HasAnswered (engine : Engine) (now : Number) (asked : List Query) : Prop where
  enabled : engine.cache.enabled = true
  lasting : ¬ engine.cache.lifetime < now - now
  entries : ∀ key, engine.cache.entries.get? key =
    (engine.firstAnswer key asked).map fun answer => ⟨answer, engine.cache.lifetime, now⟩

namespace HasAnswered

variable {engine : Engine} {now : Number} {asked : List Query}

/-- The engine stays what it is but for what its cache holds and counts. -/
theorem next (h : HasAnswered engine now asked) {q : Query} {cache : Cache Number Answer}
    (henabled : cache.enabled = engine.cache.enabled)
    (hlifetime : cache.lifetime = engine.cache.lifetime)
    (hentries : ∀ key, cache.entries.get? key =
      (engine.firstAnswer key (asked ++ [q])).map
        fun answer => ⟨answer, engine.cache.lifetime, now⟩) :
    HasAnswered { engine with cache } now (asked ++ [q]) where
  enabled := henabled.trans h.enabled
  lasting := by
    show ¬ cache.lifetime < now - now
    rw [hlifetime]
    exact h.lasting
  entries := by
    intro key
    show cache.entries.get? key = (engine.firstAnswer key (asked ++ [q])).map
      fun answer => ⟨answer, cache.lifetime, now⟩
    rw [hlifetime]
    exact hentries key

theorem get_of_firstAnswer (h : HasAnswered engine now asked) {key : String} {answer : Answer}
    (hfirst : engine.firstAnswer key asked = some answer) :
    engine.cache.get key now =
      (some answer, { engine.cache with hits := engine.cache.hits + 1 }) := by
  have hentry := h.entries key
  rw [hfirst, Option.map_some] at hentry
  have hlasting : CacheEntry.isExpired
      (⟨answer, engine.cache.lifetime, now⟩ : CacheEntry Number Answer) now = false := by
    simpa [CacheEntry.isExpired] using h.lasting
  simp [Cache.get, h.enabled, hentry, hlasting]

theorem get_of_none (h : HasAnswered engine now asked) {key : String}
    (hfirst : engine.firstAnswer key asked = none) :
    engine.cache.get key now =
      (none, { engine.cache with misses := engine.cache.misses + 1 }) := by
  have hentry := h.entries key
  rw [hfirst, Option.map_none] at hentry
  simp [Cache.get, h.enabled, hentry]

/-- A query is answered with the first answer to its key, which stays the first one. -/
theorem execute (h : HasAnswered engine now asked) (q : Query) :
    (engine.execute q now).1 = engine.answerAfter asked q ∧
      HasAnswered (engine.execute q now).2 now (asked ++ [q]) := by
  unfold Engine.execute answerAfter
  cases hkey : q.key with
  | error e =>
      have hfailed : engine.answerAfresh q = .error (.noKey e) := by rw [answerAfresh, hkey]
      refine ⟨rfl, h.next rfl rfl fun other => ?_⟩
      rw [firstAnswer_concat_of_error hfailed]
      exact h.entries other
  | ok key =>
      cases hfirst : engine.firstAnswer key asked with
      | some answer =>
          simp only [h.get_of_firstAnswer hfirst, hfirst]
          refine ⟨trivial, h.next rfl rfl fun other => ?_⟩
          rw [firstAnswer_concat_of_some hkey hfirst]
          exact h.entries other
      | none =>
          simp only [h.get_of_none hfirst, hfirst]
          cases hevaluate : engine.evaluate q with
          | error e =>
              have hfailed := (answerAfresh_of_key hkey).trans hevaluate
              refine ⟨rfl, h.next rfl rfl fun other => ?_⟩
              rw [firstAnswer_concat_of_error hfailed]
              exact h.entries other
          | ok answer =>
              have hset : ({ engine.cache with misses := engine.cache.misses + 1 } :
                  Cache Number Answer).set key answer now =
                  { engine.cache with
                    entries := engine.cache.entries.insert key
                      ⟨answer, engine.cache.lifetime, now⟩
                    misses := engine.cache.misses + 1 } := by
                simp [Cache.set, h.enabled]
              simp only [hset]
              refine ⟨trivial, h.next rfl rfl fun other => ?_⟩
              rw [firstAnswer_concat, firstAnswer_singleton hkey, hevaluate]
              show (engine.cache.entries.insert key _).get? other = _
              rw [OrderedMap.get?_insert]
              -- The answer is the first one to its own key, and nothing to any other.
              split
              case isTrue hsame =>
                rw [← hsame, hfirst]
                rfl
              case isFalse =>
                rw [Option.or_none]
                exact h.entries other

end HasAnswered

/-- The answers of an engine that goes on caching what it is asked. -/
def answersAfter (engine : Engine) (asked : List Query) :
    List Query → List (Except ExecutionError Answer)
  | [] => []
  | q :: rest => engine.answerAfter asked q :: engine.answersAfter (asked ++ [q]) rest

theorem answersAfter_concat (engine : Engine) (asked rest : List Query) (q : Query) :
    engine.answersAfter asked (rest ++ [q]) =
      engine.answersAfter asked rest ++ [engine.answerAfter (asked ++ rest) q] := by
  induction rest generalizing asked with
  | nil => simp [answersAfter]
  | cons first rest ih => simp [answersAfter, ih]

/-- Of the engine it matters only how it evaluates queries. -/
theorem answersAfter_congr {engine other : Engine} (h : engine.evaluate = other.evaluate)
    (asked rest : List Query) : engine.answersAfter asked rest = other.answersAfter asked rest := by
  have hafter : ∀ asked q, engine.answerAfter asked q = other.answerAfter asked q := by
    intro asked q
    simp only [answerAfter, firstAnswer, h]
  induction rest generalizing asked with
  | nil => rfl
  | cons q rest ih => rw [answersAfter, answersAfter, ih, hafter]

theorem evaluate_execute (engine : Engine) (q : Query) (now : Number) :
    (engine.execute q now).2.evaluate = engine.evaluate := by
  rw [execute_snd]
  rfl

theorem HasAnswered.answers {engine : Engine} {now : Number} {asked : List Query}
    (h : HasAnswered engine now asked) (queries : List Query) :
    engine.answers now queries = engine.answersAfter asked queries := by
  induction queries generalizing engine asked with
  | nil => rfl
  | cons q rest ih =>
      obtain ⟨hanswer, hnext⟩ := h.execute q
      rw [Engine.answers, answersAfter, hanswer, ih hnext,
        answersAfter_congr (evaluate_execute engine q now)]

theorem hasAnswered_ofStore (settings : Settings) {now : Number} (store : Store)
    (henabled : settings.cacheEnabled = true)
    (hlasting : ¬ Number.float settings.cacheLifetime < now - now) :
    HasAnswered (ofStore settings store) now [] where
  enabled := henabled
  lasting := hlasting
  entries := fun _ => rfl

/-- The first answer to a key was found by a query that was asked. -/
theorem exists_of_firstAnswer {engine : Engine} {key : String} {asked : List Query}
    {answer : Answer} (h : engine.firstAnswer key asked = some answer) :
    ∃ earlier ∈ asked, earlier.key = .ok key ∧ engine.evaluate earlier = .ok answer := by
  obtain ⟨earlier, hearlier, hfound⟩ := List.exists_of_findSome?_eq_some h
  cases hkey : earlier.key with
  | error e => rw [hkey] at hfound; cases hfound
  | ok other =>
      simp only [hkey] at hfound
      split at hfound
      case isTrue hsame =>
        cases hevaluate : engine.evaluate earlier with
        | error e => rw [hevaluate] at hfound; cases hfound
        | ok found =>
            rw [hevaluate] at hfound
            obtain rfl := Option.some.inj hfound
            exact ⟨earlier, hearlier, by rw [hkey, hsame], hevaluate⟩
      case isFalse => cases hfound

theorem answerAfresh_congr {engine other : Engine} (h : engine.evaluate = other.evaluate) :
    engine.answerAfresh = other.answerAfresh := by
  funext q
  rw [answerAfresh, answerAfresh, h]

/-- All that the cache holds is over, and so is what it is given now. -/
structure HasExpired (engine : Engine) (now : Number) : Prop where
  fleeting : engine.cache.lifetime < now - now
  entries : ∀ key entry, engine.cache.entries.get? key = some entry → entry.isExpired now = true

namespace HasExpired

variable {engine : Engine} {now : Number}

/-- A query is evaluated, and its answer is over at once. -/
theorem execute (h : HasExpired engine now) (q : Query) :
    (engine.execute q now).1 = engine.answerAfresh q ∧
      HasExpired (engine.execute q now).2 now := by
  rcases execute_cases engine q now now with
    ⟨e, hkey, hexecute⟩ | ⟨key, hkey, ⟨entry, hentry, hfresh, -⟩ |
      ⟨cache, -, hlifetime, hentries, ⟨e, hevaluate, hexecute⟩ | ⟨answer, hevaluate, hexecute⟩⟩⟩
  · rw [hexecute, answerAfresh, hkey]
    exact ⟨rfl, h⟩
  · rw [h.entries key entry hentry] at hfresh
    cases hfresh
  · rw [hexecute, answerAfresh_of_key hkey, hevaluate]
    refine ⟨rfl, ?_, fun other entry hentry => h.entries other entry (hentries other entry hentry)⟩
    rw [hlifetime]
    exact h.fleeting
  · rw [hexecute, answerAfresh_of_key hkey, hevaluate]
    refine ⟨rfl, ?_, ?_⟩
    · rw [Cache.set_lifetime, hlifetime]
      exact h.fleeting
    · intro other entry hentry
      rcases Cache.get?_set hentry with ⟨-, rfl⟩ | hold
      · rw [hlifetime]
        exact decide_eq_true h.fleeting
      · exact h.entries other entry (hentries other entry hold)

theorem answers (h : HasExpired engine now) (queries : List Query) :
    engine.answers now queries = queries.map engine.answerAfresh := by
  induction queries generalizing engine with
  | nil => rfl
  | cons q rest ih =>
      obtain ⟨hanswer, hnext⟩ := h.execute q
      rw [Engine.answers, hanswer, ih hnext, answerAfresh_congr (evaluate_execute engine q now),
        List.map_cons]

end HasExpired

theorem hasExpired_ofStore (settings : Settings) {now : Number} (store : Store)
    (h : Number.float settings.cacheLifetime < now - now) :
    HasExpired (ofStore settings store) now where
  fleeting := h
  entries := fun _ _ hentry => by cases hentry

end Engine

end PropertyGraph
