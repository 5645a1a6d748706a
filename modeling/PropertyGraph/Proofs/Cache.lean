import PropertyGraph.Cache
import PropertyGraph.Proofs.OrderedMap

/-!
What looking up and storing do to the entries of a cache: a look-up finds an entry whose time is not
over or drops one whose time is, and storing replaces the entry of one key.
-/

namespace PropertyGraph

namespace Cache

variable {τ : Type u} {α : Type v}

@[simp] theorem set_lifetime (cache : Cache τ α) (key : String) (data : α) (now : τ)
    (lifetime : Option τ) : (cache.set key data now lifetime).lifetime = cache.lifetime := by
  unfold set
  split <;> rfl

@[simp] theorem set_enabled (cache : Cache τ α) (key : String) (data : α) (now : τ)
    (lifetime : Option τ) : (cache.set key data now lifetime).enabled = cache.enabled := by
  unfold set
  split <;> rfl

/-- An entry after storing is the stored one or an earlier one. -/
theorem get?_set {cache : Cache τ α} {key other : String} {data : α} {now : τ}
    {entry : CacheEntry τ α} (h : (cache.set key data now).entries.get? other = some entry) :
    (other = key ∧ entry = ⟨data, cache.lifetime, now⟩) ∨
      cache.entries.get? other = some entry := by
  unfold set at h
  split at h
  · rw [OrderedMap.get?_insert] at h
    split at h
    · exact .inl ⟨Eq.symm ‹_›, (Option.some.inj h).symm⟩
    · exact .inr h
  · exact .inr h

variable [Sub τ] [LT τ] [DecidableLT τ]

@[simp] theorem get_enabled (cache : Cache τ α) (key : String) (now : τ) :
    (cache.get key now).2.enabled = cache.enabled := by
  unfold get
  split
  · split
    · rfl
    · split <;> rfl
  · rfl

theorem get_of_disabled {cache : Cache τ α} (h : cache.enabled = false) (key : String) (now : τ) :
    cache.get key now = (none, cache) := by
  simp [get, h]

theorem get_of_expired {cache : Cache τ α} {key : String} {entry : CacheEntry τ α} {now : τ}
    (hentry : cache.entries.get? key = some entry) (hexpired : entry.isExpired now = true) :
    (cache.get key now).1 = none := by
  simp only [get, hentry, hexpired]
  split <;> rfl

/-- A look-up that finds nothing leaves no entry of its key, and counts as a miss. If there was an
entry its time was over. -/
theorem get_of_missed {cache : Cache τ α} (henabled : cache.enabled = true) {key : String} {now : τ}
    (h : (cache.get key now).1 = none) :
    (cache.get key now).2 =
        { cache with entries := cache.entries.erase key, misses := cache.misses + 1 } ∧
      ∀ entry, cache.entries.get? key = some entry → entry.isExpired now = true := by
  cases hentry : cache.entries.get? key with
  | none =>
      refine ⟨?_, nofun⟩
      rw [OrderedMap.erase_of_get?_eq_none hentry]
      simp [get, henabled, hentry]
  | some entry =>
      have hexpired : entry.isExpired now = true := by
        cases hfresh : entry.isExpired now with
        | true => rfl
        | false => simp [get, henabled, hentry, hfresh] at h
      refine ⟨by simp [get, henabled, hentry, hexpired], ?_⟩
      rintro _ ⟨⟩
      exact hexpired

/-- A look-up finds an entry of the key that is not expired, or finds nothing and leaves no entry
that was not there. -/
theorem get_cases (cache : Cache τ α) (key : String) (now : τ) :
    (∃ entry, cache.entries.get? key = some entry ∧ entry.isExpired now = false ∧
      cache.get key now = (some entry.data, { cache with hits := cache.hits + 1 })) ∨
    ∃ after, cache.get key now = (none, after) ∧ after.lifetime = cache.lifetime ∧
      ∀ other entry, after.entries.get? other = some entry →
        cache.entries.get? other = some entry := by
  unfold get
  split
  · cases hentry : cache.entries.get? key with
    | none => exact .inr ⟨_, rfl, rfl, fun _ _ h => h⟩
    | some entry =>
        cases hexpired : entry.isExpired now with
        | false => exact .inl ⟨entry, rfl, hexpired, by simp [hexpired]⟩
        | true =>
            refine .inr ⟨{ cache with
              entries := cache.entries.erase key
              misses := cache.misses + 1 }, by simp [hexpired], rfl, ?_⟩
            intro other kept h
            rw [OrderedMap.get?_erase] at h
            split at h
            · cases h
            · exact h
  · exact .inr ⟨_, rfl, rfl, fun _ _ h => h⟩

end Cache

end PropertyGraph
