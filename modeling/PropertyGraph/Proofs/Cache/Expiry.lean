import Mathlib.Data.List.Induction
import PropertyGraph.Proofs.Cache
import PropertyGraph.Proofs.Number.Difference

/-!
A cache that drops an entry only when it is looked up past its time gives the same answers as if
each entry was gone from that time on: a look-up finds what was last stored under its key since the
cache was cleared, if that is not too old. What is asked of other keys makes no difference.
-/

namespace PropertyGraph.Cache

variable {τ : Type u} {α : Type v}

/-- What is asked of a cache, with the reading of the clock at that moment. -/
inductive Step (τ : Type u) (α : Type v) where
  | set (key : String) (data : α) (now : τ) (lifetime : Option τ := none)
  | get (key : String) (now : τ)
  | clear

/-- An enabled cache without entries. -/
def fresh (lifetime : τ) : Cache τ α := { lifetime, enabled := true }

namespace Step

def reading? : Step τ α → Option τ
  | .set _ _ now _ => some now
  | .get _ now => some now
  | .clear => none

/-- The lifetime that an entry is given of its own. -/
def lifetime? : Step τ α → Option τ
  | .set _ _ _ lifetime => lifetime
  | _ => none

/-- The step stores something under the key, or clears the cache. -/
def Replaces (key : String) : Step τ α → Prop
  | .set other .. => other = key
  | .get .. => False
  | .clear => True

/-- The step is about the key, or about all keys. -/
def concerns (key : String) : Step τ α → Bool
  | .set other .. => other = key
  | .get other _ => other = key
  | .clear => true

end Step

/-- What the clock shows in the course of some steps. -/
def readings (steps : List (Step τ α)) : List τ := steps.filterMap Step.reading?

/-- The entry last stored under a key since the cache was cleared, after one more step. -/
def storedAfter (lifetime : τ) (key : String) (stored : Option (CacheEntry τ α)) :
    Step τ α → Option (CacheEntry τ α)
  | .set other data now own => if other = key then some ⟨data, own.getD lifetime, now⟩ else stored
  | .get .. => stored
  | .clear => none

/-- The entry last stored under a key since the cache was cleared. -/
def lastStored? (lifetime : τ) (steps : List (Step τ α)) (key : String) :
    Option (CacheEntry τ α) :=
  steps.foldl (storedAfter lifetime key) none

theorem lastStored?_concat (lifetime : τ) (steps : List (Step τ α)) (step : Step τ α)
    (key : String) :
    lastStored? lifetime (steps ++ [step]) key =
      storedAfter lifetime key (lastStored? lifetime steps key) step :=
  List.foldl_append

theorem storedAfter_of_not_replaces {lifetime : τ} {key : String}
    {stored : Option (CacheEntry τ α)} {step : Step τ α} (h : ¬ step.Replaces key) :
    storedAfter lifetime key stored step = stored := by
  cases step with
  | set other data now own => exact if_neg h
  | get other now => rfl
  | clear => exact absurd trivial h

/-- The last entry comes from a step after which nothing was stored under its key and the cache was
not cleared. -/
theorem lastStored?_eq_some_iff {lifetime : τ} {steps : List (Step τ α)} {key : String}
    {entry : CacheEntry τ α} :
    lastStored? lifetime steps key = some entry ↔
      ∃ before own after, steps = before ++ .set key entry.data entry.stored own :: after ∧
        (∀ step ∈ after, ¬ step.Replaces key) ∧ entry.lifetime = own.getD lifetime := by
  constructor
  · intro h
    induction steps using List.reverseRecOn with
    | nil => cases h
    | append_singleton steps step ih =>
        rw [lastStored?_concat] at h
        by_cases hreplaces : step.Replaces key
        · cases step with
          | set other data now own =>
              obtain rfl : other = key := hreplaces
              rw [storedAfter, if_pos rfl] at h
              obtain rfl := Option.some.inj h
              exact ⟨steps, own, [], rfl, nofun, rfl⟩
          | get other now => cases hreplaces
          | clear => cases h
        · rw [storedAfter_of_not_replaces hreplaces] at h
          obtain ⟨before, own, after, rfl, hafter, hlifetime⟩ := ih h
          refine ⟨before, own, after ++ [step], by simp, fun other hother => ?_, hlifetime⟩
          rcases List.mem_append.1 hother with hother | hother
          · exact hafter other hother
          · rwa [List.mem_singleton.1 hother]
  · rintro ⟨before, own, after, rfl, hafter, hlifetime⟩
    induction after using List.reverseRecOn with
    | nil =>
        rw [lastStored?_concat, storedAfter, if_pos rfl, ← hlifetime]
    | append_singleton after step ih =>
        rw [← List.cons_append, ← List.append_assoc, lastStored?_concat,
          storedAfter_of_not_replaces (hafter step (by simp))]
        exact ih fun other hother => hafter other (List.mem_append_left _ hother)

theorem stored_mem_readings {lifetime : τ} {steps : List (Step τ α)} {key : String}
    {entry : CacheEntry τ α} (h : lastStored? lifetime steps key = some entry) :
    entry.stored ∈ readings steps := by
  obtain ⟨before, own, after, rfl, -, -⟩ := lastStored?_eq_some_iff.1 h
  exact List.mem_filterMap.2 ⟨_, List.mem_append_right _ List.mem_cons_self, rfl⟩

/-- The lifetime of the last entry is its own one or that of the cache. -/
theorem lifetime_of_lastStored? {P : τ → Prop} {lifetime : τ} {steps : List (Step τ α)}
    {key : String} {entry : CacheEntry τ α} (hlifetime : P lifetime)
    (hown : ∀ step ∈ steps, ∀ own, step.lifetime? = some own → P own)
    (h : lastStored? lifetime steps key = some entry) : P entry.lifetime := by
  obtain ⟨before, own, after, rfl, -, hentry⟩ := lastStored?_eq_some_iff.1 h
  rw [hentry]
  cases own with
  | none => exact hlifetime
  | some own => exact hown _ (List.mem_append_right before List.mem_cons_self) own rfl

variable [Sub τ] [LT τ] [DecidableLT τ]

/-- The cache after a step. -/
def perform (cache : Cache τ α) : Step τ α → Cache τ α
  | .set key data now lifetime => cache.set key data now lifetime
  | .get key now => (cache.get key now).2
  | .clear => cache.clear

/-- The cache after a run. -/
def performAll (cache : Cache τ α) (steps : List (Step τ α)) : Cache τ α :=
  steps.foldl perform cache

theorem performAll_concat (cache : Cache τ α) (steps : List (Step τ α)) (step : Step τ α) :
    cache.performAll (steps ++ [step]) = (cache.performAll steps).perform step :=
  List.foldl_append

theorem get_fst {cache : Cache τ α} (h : cache.enabled = true) (key : String) (now : τ) :
    (cache.get key now).1 =
      (cache.entries.get? key).bind fun entry =>
        if entry.isExpired now then none else some entry.data := by
  rw [get, if_pos h]
  cases cache.entries.get? key with
  | none => rfl
  | some entry => cases hexpired : entry.isExpired now <;> simp [hexpired]

/-- A look-up keeps all entries but one of its key that is over. -/
theorem get?_get {cache : Cache τ α} (h : cache.enabled = true) (key other : String) (now : τ) :
    (cache.get key now).2.entries.get? other =
      if key = other then
        (cache.entries.get? other).bind fun entry =>
          if entry.isExpired now then none else some entry
      else cache.entries.get? other := by
  rw [get, if_pos h]
  by_cases hkey : key = other
  · subst hkey
    cases hentry : cache.entries.get? key with
    | none => simp [hentry]
    | some entry => cases hexpired : entry.isExpired now <;> simp [hentry, hexpired]
  · cases hentry : cache.entries.get? key with
    | none => simp [hkey]
    | some entry => cases hexpired : entry.isExpired now <;> simp [hexpired, hkey]

@[simp] theorem get_lifetime (cache : Cache τ α) (key : String) (now : τ) :
    (cache.get key now).2.lifetime = cache.lifetime := by
  rcases cache.get_cases key now with ⟨entry, -, -, hget⟩ | ⟨after, hget, hlifetime, -⟩
  · rw [hget]
  · rw [hget, hlifetime]

@[simp] theorem perform_enabled (cache : Cache τ α) (step : Step τ α) :
    (cache.perform step).enabled = cache.enabled := by
  cases step with
  | set key data now lifetime => exact set_enabled ..
  | get key now => exact get_enabled ..
  | clear => rfl

@[simp] theorem perform_lifetime (cache : Cache τ α) (step : Step τ α) :
    (cache.perform step).lifetime = cache.lifetime := by
  cases step with
  | set key data now lifetime => exact set_lifetime ..
  | get key now => exact get_lifetime ..
  | clear => rfl

theorem performAll_enabled (lifetime : τ) (steps : List (Step τ α)) :
    ((fresh lifetime).performAll steps).enabled = true := by
  induction steps using List.reverseRecOn with
  | nil => rfl
  | append_singleton steps step ih => rw [performAll_concat, perform_enabled, ih]

theorem performAll_lifetime (lifetime : τ) (steps : List (Step τ α)) :
    ((fresh lifetime).performAll steps).lifetime = lifetime := by
  induction steps using List.reverseRecOn with
  | nil => rfl
  | append_singleton steps step ih => rw [performAll_concat, perform_lifetime, ih]

/-- What a step leaves under a key, given what was there. -/
def entryAfter (lifetime : τ) (key : String) (found : Option (CacheEntry τ α)) :
    Step τ α → Option (CacheEntry τ α)
  | .get other now =>
    if other = key then found.bind fun entry => if entry.isExpired now then none else some entry
    else found
  | step => storedAfter lifetime key found step

/-- A step acts on each key for itself. -/
theorem get?_perform {cache : Cache τ α} (h : cache.enabled = true) (step : Step τ α)
    (key : String) :
    (cache.perform step).entries.get? key =
      entryAfter cache.lifetime key (cache.entries.get? key) step := by
  cases step with
  | set other data now lifetime =>
      rw [perform, set, if_pos h]
      exact OrderedMap.get?_insert ..
  | get other now => exact get?_get h other key now
  | clear => rfl

theorem entryAfter_of_not_concerns {lifetime : τ} {key : String}
    {found : Option (CacheEntry τ α)} {step : Step τ α} (h : step.concerns key = false) :
    entryAfter lifetime key found step = found := by
  cases step with
  | set other data now own => exact if_neg (of_decide_eq_false h)
  | get other now => exact if_neg (of_decide_eq_false h)
  | clear => cases h

/-- What is under a key after a run. -/
theorem get?_performAll (lifetime : τ) (steps : List (Step τ α)) (key : String) :
    ((fresh lifetime).performAll steps).entries.get? key =
      steps.foldl (entryAfter lifetime key) none := by
  induction steps using List.reverseRecOn with
  | nil => rfl
  | append_singleton steps step ih =>
      rw [performAll_concat, get?_perform (performAll_enabled _ _), ih, performAll_lifetime,
        List.foldl_append, List.foldl_cons, List.foldl_nil]

theorem get_fst_performAll (lifetime : τ) (steps : List (Step τ α)) (key : String) (now : τ) :
    (((fresh lifetime).performAll steps).get key now).1 =
      (steps.foldl (entryAfter lifetime key) none).bind fun entry =>
        if entry.isExpired now then none else some entry.data := by
  rw [get_fst (performAll_enabled _ _), get?_performAll]

/-- What is asked of other keys leaves no trace under a key. -/
theorem foldl_entryAfter_filter (lifetime : τ) (steps : List (Step τ α)) (key : String)
    (found : Option (CacheEntry τ α)) :
    (steps.filter (·.concerns key)).foldl (entryAfter lifetime key) found =
      steps.foldl (entryAfter lifetime key) found := by
  induction steps generalizing found with
  | nil => rfl
  | cons step rest ih =>
      cases hconcerns : step.concerns key with
      | true => rw [List.filter_cons_of_pos hconcerns, List.foldl_cons, List.foldl_cons, ih]
      | false =>
          rw [List.filter_cons_of_neg (by simp [hconcerns]), List.foldl_cons,
            entryAfter_of_not_concerns hconcerns, ih]

/-- What stands under a key is what was last stored there, or nothing because that was over at one
of the times. -/
def Agree (times : List τ) (found stored : Option (CacheEntry τ α)) : Prop :=
  found = stored ∨
    found = none ∧ ∃ entry, stored = some entry ∧ ∃ time ∈ times, entry.isExpired time = true

namespace Agree

variable {times : List τ} {found stored : Option (CacheEntry τ α)}

theorem append (h : Agree times found stored) (later : List τ) :
    Agree (times ++ later) found stored := by
  rcases h with hsame | ⟨hnone, entry, hstored, time, htime, hexpired⟩
  · exact .inl hsame
  · exact .inr ⟨hnone, entry, hstored, time, List.mem_append_left later htime, hexpired⟩

/-- A look-up of the key drops an entry only at a time at which that is over. -/
theorem get (h : Agree times found stored) (now : τ) :
    Agree (times ++ [now])
      (found.bind fun entry => if entry.isExpired now then none else some entry) stored := by
  rcases h with rfl | ⟨rfl, hgone⟩
  · cases found with
    | none => exact .inl rfl
    | some entry =>
        cases hexpired : entry.isExpired now with
        | true => exact .inr ⟨by simp [hexpired], entry, rfl, now, by simp, hexpired⟩
        | false => exact .inl (by simp [hexpired])
  · exact append (.inr ⟨rfl, hgone⟩) [now]

theorem step (h : Agree times found stored) (lifetime : τ) (key : String) (step : Step τ α) :
    Agree (times ++ readings [step]) (entryAfter lifetime key found step)
      (storedAfter lifetime key stored step) := by
  cases step with
  | set other data now own =>
      rw [entryAfter, storedAfter, storedAfter]
      · split
        · exact .inl rfl
        · exact h.append [now]
      · nofun
  | get other now =>
      rw [entryAfter, storedAfter]
      split
      · exact h.get now
      · exact h.append [now]
  | clear => exact .inl rfl

end Agree

/-- After a run there stands under a key what was last stored there, unless the clock has shown a
time at which that was over. -/
theorem agree_foldl (lifetime : τ) (steps : List (Step τ α)) (key : String) :
    Agree (readings steps) (steps.foldl (entryAfter lifetime key) none)
      (lastStored? lifetime steps key) := by
  induction steps using List.reverseRecOn with
  | nil => exact .inl rfl
  | append_singleton steps step ih =>
      rw [List.foldl_append, List.foldl_cons, List.foldl_nil, lastStored?_concat, readings,
        List.filterMap_append]
      exact ih.step lifetime key step

/-- What the look-ups since the cache was cleared gave, after one more step. -/
def answersAfter (cache : Cache τ α) (answers : List (Option α)) : Step τ α → List (Option α)
  | .set .. => answers
  | .get key now => answers ++ [(cache.get key now).1]
  | .clear => []

/-- The cache after a run that goes on from some answers, and the answers of it all since the cache
was cleared. -/
def record (cache : Cache τ α) (answers : List (Option α)) (steps : List (Step τ α)) :
    Cache τ α × List (Option α) :=
  steps.foldl (fun now step => (now.1.perform step, now.1.answersAfter now.2 step)) (cache, answers)

/-- What the look-ups of a run gave since the cache was cleared. -/
def answers (cache : Cache τ α) (steps : List (Step τ α)) : List (Option α) :=
  (cache.record [] steps).2

theorem record_fst (cache : Cache τ α) (answers : List (Option α)) (steps : List (Step τ α)) :
    (cache.record answers steps).1 = cache.performAll steps := by
  induction steps generalizing cache answers with
  | nil => rfl
  | cons step rest ih => exact ih (cache.perform step) (cache.answersAfter answers step)

theorem answers_concat (cache : Cache τ α) (steps : List (Step τ α)) (step : Step τ α) :
    cache.answers (steps ++ [step]) =
      (cache.performAll steps).answersAfter (cache.answers steps) step := by
  rw [answers, record, List.foldl_append, ← record_fst cache []]
  rfl

/-- Every look-up counts as a hit or as a miss. -/
theorem counts_get {cache : Cache τ α} (h : cache.enabled = true) (key : String) (now : τ) :
    (cache.get key now).2.hits = cache.hits + [(cache.get key now).1].countP Option.isSome ∧
      (cache.get key now).2.misses =
        cache.misses + [(cache.get key now).1].countP Option.isNone := by
  rw [get, if_pos h]
  cases cache.entries.get? key with
  | none => exact ⟨rfl, rfl⟩
  | some entry => cases hexpired : entry.isExpired now <;> simp [hexpired]

/-- The counts are those of the look-ups since the cache was cleared. -/
theorem counts_performAll (lifetime : τ) (steps : List (Step τ α)) :
    ((fresh lifetime).performAll steps).hits =
        ((fresh lifetime).answers steps).countP Option.isSome ∧
      ((fresh lifetime).performAll steps).misses =
        ((fresh lifetime).answers steps).countP Option.isNone := by
  induction steps using List.reverseRecOn with
  | nil => exact ⟨rfl, rfl⟩
  | append_singleton steps step ih =>
      rw [performAll_concat, answers_concat]
      cases step with
      | set key data now lifetime' =>
          rw [perform, set, if_pos (performAll_enabled _ _)]
          exact ih
      | get key now =>
          obtain ⟨hhits, hmisses⟩ := counts_get (performAll_enabled lifetime steps) key now
          rw [perform, answersAfter, hhits, hmisses, List.countP_append, List.countP_append, ih.1,
            ih.2]
          exact ⟨rfl, rfl⟩
      | clear => exact ⟨rfl, rfl⟩

section

variable {times : List Number} (hclock : Number.IsClock times) {entry : CacheEntry Number α}
  (hstored : entry.stored ∈ times)

include hclock hstored

/-- What is over stays over. -/
theorem isExpired_of_le {time now : Number} (htime : time ∈ times) (hnow : now ∈ times)
    (hle : time ≤ now) (h : entry.isExpired time = true) : entry.isExpired now = true :=
  decide_eq_true (Number.lt_of_lt_of_le (of_decide_eq_true h)
    (hclock.sub_mono hstored htime hnow hle))

theorem isExpired_eq_false_iff {now : Number} (hnow : now ∈ times)
    (hlifetime : entry.lifetime ≠ .float .nan) :
    entry.isExpired now = false ↔ now - entry.stored ≤ entry.lifetime := by
  rw [CacheEntry.isExpired, decide_eq_false_iff_not]
  exact Number.not_lt_iff_le (Number.place?_isSome_iff.2 hlifetime)
    (hclock.sub_hasPlace hstored hnow)

end

/-- A look-up goes by the entry last stored, whether or not that is still there: what has been
dropped was over at an earlier time, so it is over now. -/
theorem get_fst_eq_lastStored? {lifetime : Number} {steps : List (Step Number α)} {now : Number}
    (hclock : Number.IsClock (readings steps ++ [now])) (key : String) :
    (((fresh lifetime).performAll steps).get key now).1 =
      (lastStored? lifetime steps key).bind fun entry =>
        if entry.isExpired now then none else some entry.data := by
  rw [get_fst_performAll]
  rcases agree_foldl lifetime steps key with
    hsame | ⟨hnone, entry, hlast, time, htime, hexpired⟩
  · rw [hsame]
  · have hnow : now ∈ readings steps ++ [now] := by simp
    have hstored := List.mem_append_left [now] (stored_mem_readings hlast)
    have hle : time ≤ now := (List.pairwise_append.1 hclock.forward).2.2 time htime now (by simp)
    have hover := isExpired_of_le hclock hstored (List.mem_append_left _ htime) hnow hle hexpired
    simp [hnone, hlast, hover]

/-- A look-up finds what was last stored under its key since the cache was cleared, exactly if no
more time has passed since then than the entry lasts. The counts are those of the look-ups since the
cache was cleared, and what is asked of other keys makes no difference. -/
theorem get_finds_last_stored {lifetime : Number} {steps : List (Step Number α)} {now : Number}
    (hclock : Number.IsClock (readings steps ++ [now])) (hlifetime : lifetime ≠ .float .nan)
    (hown : ∀ step ∈ steps, step.lifetime? ≠ some (.float .nan)) (key : String) :
    let cache := (fresh lifetime).performAll steps
    (∀ data, (cache.get key now).1 = some data ↔
      ∃ before stored own after, steps = before ++ .set key data stored own :: after ∧
        (∀ step ∈ after, ¬ step.Replaces key) ∧ now - stored ≤ own.getD lifetime) ∧
      cache.hits = ((fresh lifetime).answers steps).countP Option.isSome ∧
      cache.misses = ((fresh lifetime).answers steps).countP Option.isNone ∧
      (cache.get key now).1 =
        (((fresh lifetime).performAll (steps.filter (·.concerns key))).get key now).1 := by
  intro cache
  have hfresh : ∀ entry, lastStored? lifetime steps key = some entry →
      (entry.isExpired now = false ↔ now - entry.stored ≤ entry.lifetime) := by
    intro entry hlast
    refine isExpired_eq_false_iff hclock (List.mem_append_left _ (stored_mem_readings hlast))
      (by simp) ?_
    refine lifetime_of_lastStored? (P := (· ≠ .float .nan)) hlifetime ?_ hlast
    rintro step hstep own hset rfl
    exact hown step hstep hset
  obtain ⟨hhits, hmisses⟩ := counts_performAll lifetime steps
  have hothers : (cache.get key now).1 =
      (((fresh lifetime).performAll (steps.filter (·.concerns key))).get key now).1 := by
    rw [get_fst_performAll, get_fst_performAll, foldl_entryAfter_filter]
  refine ⟨fun data => ?_, hhits, hmisses, hothers⟩
  rw [get_fst_eq_lastStored? hclock, Option.bind_eq_some_iff]
  constructor
  · rintro ⟨entry, hlast, hdata⟩
    cases hexpired : entry.isExpired now with
    | true => simp [hexpired] at hdata
    | false =>
        obtain rfl : entry.data = data := by simpa [hexpired] using hdata
        have hle := (hfresh entry hlast).1 hexpired
        obtain ⟨before, own, after, hsteps, hafter, hentry⟩ := lastStored?_eq_some_iff.1 hlast
        exact ⟨before, entry.stored, own, after, hsteps, hafter, hentry ▸ hle⟩
  · rintro ⟨before, stored, own, after, hsteps, hafter, hle⟩
    have hlast : lastStored? lifetime steps key = some ⟨data, own.getD lifetime, stored⟩ :=
      lastStored?_eq_some_iff.2 ⟨before, own, after, hsteps, hafter, rfl⟩
    exact ⟨_, hlast, by simp [(hfresh _ hlast).2 hle]⟩

/-- An entry is found five seconds after it was stored, dropped a second later, and stored anew with
the lifetime of the cache; at the end of that it is still found. The entry of the other key is over
by then. -/
theorem get_of_stored_anew :
    let time (seconds : Int) : Number := .float (.ofInt seconds)
    let steps : List (Step Number Nat) :=
      [.set "a" 1 (time 1000) (some (time 5)), .get "a" (time 1005), .get "a" (time 1006),
        .set "a" 2 (time 1006), .set "b" 3 (time 1006) (some (time 1)), .get "b" (time 1010)]
    let cache := (fresh (time 10)).performAll steps
    Number.IsClock (readings steps ++ [time 1016]) ∧ time 10 ≠ .float .nan ∧
      (∀ step ∈ steps, step.lifetime? ≠ some (.float .nan)) ∧
      (cache.get "a" (time 1016)).1 = some 2 ∧ cache.hits = 1 ∧ cache.misses = 2 ∧
      (((fresh (time 10)).performAll (steps.filter (·.concerns "a"))).get "a" (time 1016)).1 =
        some 2 := by
  intro time steps cache
  have hclock : Number.IsClock (readings steps ++ [time 1016]) := by
    have hreadings : readings steps ++ [time 1016] =
        [1000, 1005, 1006, 1006, 1006, 1010, 1016].map time := rfl
    rw [hreadings]
    refine ⟨.inr (List.forall_mem_map.2 fun seconds hseconds => ⟨_, rfl, ?_⟩), by decide +kernel⟩
    revert seconds
    decide +kernel
  have hown : ∀ step ∈ steps, step.lifetime? ≠ some (.float .nan) := by decide +kernel
  obtain ⟨hdata, hhits, hmisses, hsame⟩ :=
    get_finds_last_stored hclock (show time 10 ≠ .float .nan by decide +kernel) hown "a"
  have hfound : (cache.get "a" (time 1016)).1 = some 2 := by
    refine (hdata 2).2 ⟨steps.take 3, time 1006, none, steps.drop 4, rfl, ?_, by decide +kernel⟩
    simp [steps, Step.Replaces]
  exact ⟨hclock, by decide +kernel, hown, hfound, by rw [hhits]; decide +kernel,
    by rw [hmisses]; decide +kernel, hsame.symm.trans hfound⟩

end PropertyGraph.Cache
