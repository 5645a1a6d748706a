import PropertyGraph.OrderedMap

/-!
Ordered maps through their look-ups: what `get?` returns is what stands among the entries, and the
keys are those that `get?` finds.
-/

namespace PropertyGraph.OrderedMap

variable {κ : Type u} {α : Type v}

theorem nodup_keys (map : OrderedMap κ α) : map.keys.Nodup := map.distinct

theorem mem_keys_of_mem {map : OrderedMap κ α} {key : κ} {value : α}
    (h : (key, value) ∈ map.entries) : key ∈ map.keys :=
  List.mem_map_of_mem h

theorem size_eq_length_keys (map : OrderedMap κ α) : map.size = map.keys.length :=
  (List.length_map _).symm

theorem eq_of_entries_eq {first second : OrderedMap κ α} (h : first.entries = second.entries) :
    first = second := by
  cases first
  cases second
  cases h
  rfl

@[simp] theorem keys_empty : (∅ : OrderedMap κ α).keys = [] := rfl

variable [DecidableEq κ]

theorem mem_entries_of_get? {map : OrderedMap κ α} {key : κ} {value : α}
    (h : map.get? key = some value) : (key, value) ∈ map.entries := by
  obtain ⟨entry, hfind, rfl⟩ := Option.map_eq_some_iff.1 h
  have hkey : entry.1 = key := by simpa using List.find?_some hfind
  subst hkey
  exact List.mem_of_find?_eq_some hfind

/-- No two entries share a key, so an entry is what its key finds. -/
theorem get?_eq_some_iff {map : OrderedMap κ α} {key : κ} {value : α} :
    map.get? key = some value ↔ (key, value) ∈ map.entries := by
  refine ⟨mem_entries_of_get?, fun h => ?_⟩
  obtain ⟨entries, distinct⟩ := map
  unfold get?
  induction entries with
  | nil => simp at h
  | cons entry rest ih =>
      rw [List.map_cons, List.nodup_cons] at distinct
      rcases List.mem_cons.1 h with rfl | hrest
      · simp
      · have hne : entry.1 ≠ key := by
          rintro rfl
          exact distinct.1 (List.mem_map.2 ⟨_, hrest, rfl⟩)
        rw [List.find?_cons_of_neg (by simpa using hne)]
        exact ih distinct.2 hrest

theorem mem_keys_iff {map : OrderedMap κ α} {key : κ} :
    key ∈ map.keys ↔ ∃ value, map.get? key = some value := by
  constructor
  · intro h
    obtain ⟨entry, hentry, rfl⟩ := List.mem_map.1 h
    exact ⟨entry.2, get?_eq_some_iff.2 hentry⟩
  · rintro ⟨value, h⟩
    exact mem_keys_of_mem (get?_eq_some_iff.1 h)

theorem get?_eq_none_iff {map : OrderedMap κ α} {key : κ} :
    map.get? key = none ↔ key ∉ map.keys := by
  rw [mem_keys_iff, Option.eq_none_iff_forall_ne_some]
  simp

theorem mem_keys_insert {map : OrderedMap κ α} {key other : κ} {value : α} :
    other ∈ (map.insert key value).keys ↔ other = key ∨ other ∈ map.keys := by
  rw [mem_keys_iff, get?_insert, mem_keys_iff]
  by_cases h : key = other
  · simp [h]
  · simp [h, Ne.symm h]

theorem mem_keys_erase {map : OrderedMap κ α} {key other : κ} :
    other ∈ (map.erase key).keys ↔ other ≠ key ∧ other ∈ map.keys := by
  rw [mem_keys_iff, get?_erase, mem_keys_iff]
  by_cases h : key = other
  · simp [h]
  · simp [h, Ne.symm h]

/-- Erasing a key that finds nothing changes nothing. -/
theorem erase_of_get?_eq_none {map : OrderedMap κ α} {key : κ} (h : map.get? key = none) :
    map.erase key = map := by
  have hentries : (map.entries.filter fun entry => entry.1 ≠ key) = map.entries := by
    refine List.filter_eq_self.2 fun entry hentry => ?_
    rw [decide_eq_true_iff]
    rintro rfl
    exact get?_eq_none_iff.1 h (mem_keys_of_mem hentry)
  obtain ⟨entries, distinct⟩ := map
  unfold erase
  simp only at hentries
  simp only [hentries]

/-- A test of all entries is a test of what all keys find. -/
theorem all_entries_iff {map : OrderedMap κ α} {test : κ × α → Bool} :
    map.entries.all test = true ↔ ∀ key value, map.get? key = some value → test (key, value) := by
  rw [List.all_eq_true]
  constructor
  · intro h key value hget
    exact h _ (get?_eq_some_iff.1 hget)
  · rintro h ⟨key, value⟩ hmem
    exact h key value (get?_eq_some_iff.2 hmem)

theorem isEmpty_iff {map : OrderedMap κ α} :
    map.isEmpty = true ↔ ∀ key, map.get? key = none := by
  constructor
  · intro h key
    have hnil : map.entries = [] := by simpa [isEmpty] using h
    simp [get?, hnil]
  · intro h
    cases hentries : map.entries with
    | nil => simp [isEmpty, hentries]
    | cons entry rest =>
        have hget : map.get? entry.1 = some entry.2 :=
          get?_eq_some_iff.2 (by rw [hentries]; exact List.mem_cons_self)
        rw [h entry.1] at hget
        cases hget

theorem isEmpty_congr {first second : OrderedMap κ α}
    (h : ∀ key, first.get? key = second.get? key) : first.isEmpty = second.isEmpty := by
  rw [Bool.eq_iff_iff, isEmpty_iff, isEmpty_iff]
  simp only [h]

/-- A test of all entries depends on the bindings only. -/
theorem all_entries_congr {first second : OrderedMap κ α}
    (h : ∀ key, first.get? key = second.get? key) (test : κ × α → Bool) :
    first.entries.all test = second.entries.all test := by
  rw [Bool.eq_iff_iff, all_entries_iff, all_entries_iff]
  simp only [h]

theorem get?_foldl_insert (map : OrderedMap κ α) (entries : List (κ × α))
    (hdistinct : (entries.map Prod.fst).Nodup) (key : κ) :
    (entries.foldl (fun map entry => map.insert entry.1 entry.2) map).get? key =
      ((entries.find? (·.1 = key)).map Prod.snd).or (map.get? key) := by
  induction entries generalizing map with
  | nil => simp
  | cons entry rest ih =>
      rw [List.map_cons, List.nodup_cons] at hdistinct
      rw [List.foldl_cons, ih _ hdistinct.2, get?_insert]
      by_cases hkey : entry.1 = key
      · have hnone : rest.find? (·.1 = key) = none := by
          rw [List.find?_eq_none]
          intro other hother
          simp only [decide_eq_true_eq]
          rintro rfl
          exact hdistinct.1 (hkey ▸ List.mem_map_of_mem hother)
        simp [hkey, hnone]
      · simp [hkey]

theorem get?_ofList {entries : List (κ × α)} (hdistinct : (entries.map Prod.fst).Nodup) (key : κ) :
    (ofList entries).get? key = (entries.find? (·.1 = key)).map Prod.snd := by
  rw [ofList, get?_foldl_insert _ _ hdistinct]
  simp

theorem entries_insert_of_notMem {map : OrderedMap κ α} {key : κ} (h : key ∉ map.keys) (value : α) :
    (map.insert key value).entries = map.entries ++ [(key, value)] := by
  obtain ⟨entries, distinct⟩ := map
  show bind key value entries = entries ++ [(key, value)]
  induction entries with
  | nil => rfl
  | cons entry rest ih =>
      have hkeys : key ∉ entry.1 :: rest.map Prod.fst := h
      rw [List.mem_cons, not_or] at hkeys
      rw [bind, if_neg (Ne.symm hkeys.1), ih (List.nodup_cons.1 distinct).2 hkeys.2,
        List.cons_append]

/-- Keys that are new, and bound once each, are bound one after another. -/
theorem entries_foldl_insert {map : OrderedMap κ α} {entries : List (κ × α)}
    (h : (map.keys ++ entries.map Prod.fst).Nodup) :
    (entries.foldl (fun map entry => map.insert entry.1 entry.2) map).entries =
      map.entries ++ entries := by
  induction entries generalizing map with
  | nil => rw [List.foldl_nil, List.append_nil]
  | cons entry rest ih =>
      rw [List.map_cons, List.append_cons] at h
      have hkey : entry.1 ∉ map.keys := fun hmem =>
        (List.nodup_append.1 (List.nodup_append.1 h).1).2.2 _ hmem _ (List.mem_singleton_self _) rfl
      have hkeys : (map.insert entry.1 entry.2).keys = map.keys ++ [entry.1] := by
        rw [keys_insert, if_neg hkey]
      rw [List.foldl_cons, ih (hkeys ▸ h), entries_insert_of_notMem hkey, List.append_assoc]
      rfl

theorem entries_ofList {entries : List (κ × α)} (h : (entries.map Prod.fst).Nodup) :
    (ofList entries).entries = entries :=
  entries_foldl_insert h

theorem ofList_entries (map : OrderedMap κ α) : ofList map.entries = map :=
  eq_of_entries_eq (entries_ofList map.distinct)

theorem mem_of_mem_foldl_insert {map : OrderedMap κ α} {entries : List (κ × α)} {entry : κ × α}
    (h : entry ∈ (entries.foldl (fun map entry => map.insert entry.1 entry.2) map).entries) :
    entry ∈ map.entries ∨ entry ∈ entries := by
  induction entries generalizing map with
  | nil => exact .inl h
  | cons first rest ih =>
      rcases ih h with hmem | hmem
      · obtain ⟨key, value⟩ := entry
        rw [← get?_eq_some_iff, get?_insert] at hmem
        split at hmem
        case isTrue hkey =>
          obtain rfl := Option.some.inj hmem
          exact .inr (List.mem_cons.2 (.inl (Prod.ext hkey.symm rfl)))
        case isFalse => exact .inl (get?_eq_some_iff.1 hmem)
      · exact .inr (List.mem_cons_of_mem _ hmem)

/-- A map of a list has no other bindings than those of the list. -/
theorem mem_of_mem_ofList {entries : List (κ × α)} {entry : κ × α}
    (h : entry ∈ (ofList entries).entries) : entry ∈ entries :=
  (mem_of_mem_foldl_insert h).resolve_left nofun

/-- A map of one entry finds nothing else. -/
theorem eq_of_get?_singleton {key other : κ} {value found : α}
    (h : (ofList [(key, value)]).get? other = some found) : found = value := by
  rw [get?_eq_some_iff] at h
  exact congrArg Prod.snd (List.mem_singleton.1 h)

end PropertyGraph.OrderedMap
