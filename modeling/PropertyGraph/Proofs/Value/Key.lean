import PropertyGraph.Value.Key

/-!
Two values are filed under one key exactly if they compare equal, except that a value that holds a
NaN is equal to none. `same_iff_of_key?` is what look-ups by key rest on.
-/

namespace PropertyGraph.Value

theorem compare?_eq_iff_numberKey (m n : Number) :
    m.compare? n = some .eq ↔ numberKey m ≠ .nan ∧ numberKey n = numberKey m := by
  rw [Number.compare?_eq_places]
  unfold numberKey
  cases m.place? with
  | none => simp
  | some x =>
      cases n.place? with
      | none => simp
      | some y => simpa [eq_comm] using Extended.compare_eq_eq_iff (a := x) (b := y)

theorem numberKey_eq (n : Number) : numberKey n = .nan ∨ ∃ place, numberKey n = .number place := by
  unfold numberKey
  cases n.place? with
  | none => exact .inl rfl
  | some place => exact .inr ⟨place, rfl⟩

theorem isReflexive_atom (key : AtomKey) :
    (ValueKey.atom key).isReflexive = true ↔ key ≠ .nan := by
  simp [ValueKey.isReflexive]

/-- A value that is a number or compares as one. -/
theorem elementKey?_of_numeric? {v : Value} {n : Number} (h : v.numeric? = some n) :
    v.elementKey? = some (.atom (numberKey n)) := by
  cases v <;> simp_all [numeric?, number?, elementKey?]

theorem numeric?_of_elementKey? {v : Value} {n : Number}
    (h : v.elementKey? = some (.atom (numberKey n))) : ∃ m, v.numeric? = some m := by
  rcases numberKey_eq n with hn | ⟨place, hn⟩ <;> rw [hn] at h <;>
    cases v <;> simp_all [numeric?, number?, elementKey?]
  all_goals split at h <;> simp at h

theorem equalNumbers_iff_elementKey? {v w : Value} {n : Number} (hv : v.numeric? = some n) :
    equalNumbers v w = true ↔
      numberKey n ≠ .nan ∧ w.elementKey? = some (.atom (numberKey n)) := by
  rw [equalNumbers, hv, Option.bind_some, beq_iff_eq]
  cases hw : w.numeric? with
  | none =>
      have hne : w.elementKey? ≠ some (.atom (numberKey n)) := by
        intro h
        obtain ⟨m, hm⟩ := numeric?_of_elementKey? h
        rw [hw] at hm
        cases hm
      simp [hne]
  | some m =>
      rw [Option.bind_some, compare?_eq_iff_numberKey, elementKey?_of_numeric? hw]
      simp

/-- The value is no sequence and no mapping. -/
def isAtom : Value → Bool
  | .tuple _ | .list _ | .dict _ => false
  | _ => true

theorem equalNumbers_eq_false {v : Value} (hv : v.numeric? = none) (w : Value) :
    equalNumbers v w = false := by
  simp [equalNumbers, hv]

theorem numberKey_ne {key : AtomKey} (hnan : key ≠ .nan) (hnumber : ∀ place, key ≠ .number place)
    (n : Number) : numberKey n ≠ key := by
  rcases numberKey_eq n with hn | ⟨place, hn⟩ <;> rw [hn]
  · exact hnan.symm
  · exact (hnumber place).symm

theorem equalScalars_eq_equalNumbers {v : Value} {n : Number} (hv : v.numeric? = some n)
    (w : Value) : v.equalScalars w = v.equalNumbers w := by
  cases v <;> cases w <;> first | rfl | cases hv

theorem elementKey?_dateTime (t : DateTime) :
    ∃ key, (Value.dateTime t).elementKey? = some (.atom key) ∧
      (key = .instant t.instant ∧ t.isAware = true ∨
        key = .localTime t.instant ∧ t.isAware = false) := by
  cases ht : t.isAware <;> exact ⟨_, rfl, by simp [ht]⟩

theorem equalScalars_dateTime_iff {t : DateTime} {w : Value} {key : AtomKey}
    (h : (Value.dateTime t).elementKey? = some (.atom key)) :
    (Value.dateTime t).equalScalars w = true ↔ w.elementKey? = some (.atom key) := by
  obtain ⟨key', hkey', hcases⟩ := elementKey?_dateTime t
  obtain rfl : key' = key := by simpa [hkey'] using h
  cases w with
  | dateTime u =>
      obtain ⟨other, hother, hothers⟩ := elementKey?_dateTime u
      rw [hother]
      rcases hcases with ⟨rfl, ht⟩ | ⟨rfl, ht⟩ <;> rcases hothers with ⟨rfl, hu⟩ | ⟨rfl, hu⟩ <;>
        simp [equalScalars, equalTimes, ht, hu]
      all_goals exact eq_comm
  | _ =>
      have hfalse := equalNumbers_eq_false (v := .dateTime t) rfl
      rcases hcases with ⟨rfl, -⟩ | ⟨rfl, -⟩ <;>
        simp [equalScalars, hfalse, elementKey?, numberKey_ne]

/-- Values without elements are equal exactly if they share a key other than NaN's. -/
theorem equalScalars_iff_of_elementKey? {v w : Value} {key : ValueKey} (hv : v.isAtom = true)
    (h : v.elementKey? = some key) :
    v.equalScalars w = true ↔ key.isReflexive = true ∧ w.elementKey? = some key := by
  cases hn : v.numeric? with
  | some n =>
      obtain rfl : ValueKey.atom (numberKey n) = key := by
        simpa [elementKey?_of_numeric? hn] using h
      rw [isReflexive_atom, ← equalNumbers_iff_elementKey? hn, equalScalars_eq_equalNumbers hn]
  | none =>
      have hfalse := equalNumbers_eq_false hn
      cases v with
      | dateTime t =>
          obtain ⟨atom, hatom, hcases⟩ := elementKey?_dateTime t
          obtain rfl : .atom atom = key := by simpa [hatom] using h
          have hne : atom ≠ .nan := by rcases hcases with ⟨rfl, -⟩ | ⟨rfl, -⟩ <;> nofun
          simp [isReflexive_atom, hne, equalScalars_dateTime_iff hatom]
      | bool b => cases hn
      | int n => cases hn
      | float x => cases hn
      | tuple items => cases hv
      | list items => cases hv
      | dict entries => cases hv
      | _ =>
          obtain rfl := Option.some.inj h
          rw [isReflexive_atom]
          cases w with
          | dateTime u =>
              obtain ⟨atom, hatom, hcases⟩ := elementKey?_dateTime u
              rw [hatom]
              rcases hcases with ⟨rfl, -⟩ | ⟨rfl, -⟩ <;> simp [equalScalars, hfalse]
          | _ =>
              simp [equalScalars, hfalse, elementKey?, numberKey_ne]
              try exact eq_comm

theorem equal_eq_equalScalars {v : Value} (hv : v.isAtom = true) (w : Value) :
    v.equal w = v.equalScalars w := by
  cases v <;> cases w <;> first | rfl | cases hv

theorem equal_iff_of_isAtom {v w : Value} {key : ValueKey} (hv : v.isAtom = true)
    (h : v.elementKey? = some key) :
    v.equal w = true ↔ key.isReflexive = true ∧ w.elementKey? = some key := by
  rw [equal_eq_equalScalars hv, equalScalars_iff_of_elementKey? hv h]

mutual

/-- A value with a key equals exactly the values of that key, unless a NaN is part of it. -/
theorem equal_iff_of_elementKey? : ∀ (v w : Value) {key : ValueKey}, v.elementKey? = some key →
    (v.equal w = true ↔ key.isReflexive = true ∧ w.elementKey? = some key)
  | .tuple vs, w, key, h => by
      obtain ⟨keys, hkeys, rfl⟩ := Option.map_eq_some_iff.1 h
      cases w with
      | tuple ws =>
          rw [equal, equalItems_iff_of_elementKeys? vs ws hkeys]
          simp [ValueKey.isReflexive, elementKey?]
      | _ => simp [equal, equalScalars, equalNumbers, numeric?, number?, elementKey?]
  | .null, _, _, h => equal_iff_of_isAtom rfl h
  | .bool b, _, _, h => equal_iff_of_isAtom rfl h
  | .int n, _, _, h => equal_iff_of_isAtom rfl h
  | .float x, _, _, h => equal_iff_of_isAtom rfl h
  | .str s, _, _, h => equal_iff_of_isAtom rfl h
  | .date d, _, _, h => equal_iff_of_isAtom rfl h
  | .dateTime t, _, _, h => equal_iff_of_isAtom rfl h
  | .bytes data, _, _, h => equal_iff_of_isAtom rfl h

theorem equalItems_iff_of_elementKeys? : ∀ (vs ws : List Value) {keys : List ValueKey},
    elementKeys? vs = some keys →
    (equalItems vs ws = true ↔ ValueKey.allReflexive keys = true ∧ elementKeys? ws = some keys)
  | [], ws, keys, h => by
      obtain rfl : [] = keys := by simpa [elementKeys?] using h
      cases ws with
      | nil => simp [equalItems, elementKeys?, ValueKey.allReflexive]
      | cons w ws =>
          simp only [equalItems, elementKeys?, ValueKey.allReflexive]
          cases w.elementKey? <;> cases elementKeys? ws <;> simp
  | v :: vs, ws, keys, h => by
      simp only [elementKeys?, Option.bind_eq_bind, Option.bind_eq_some_iff,
        Option.pure_def, Option.some.injEq] at h
      obtain ⟨key, hkey, rest, hrest, rfl⟩ := h
      cases ws with
      | nil => simp [equalItems, elementKeys?]
      | cons w ws =>
          rw [equalItems, Bool.and_eq_true, equal_iff_of_elementKey? v w hkey,
            equalItems_iff_of_elementKeys? vs ws hrest]
          simp only [elementKeys?, ValueKey.allReflexive, Bool.and_eq_true]
          cases w.elementKey? <;> cases elementKeys? ws <;> simp [and_assoc, and_left_comm]

end

/-- Truth values are not filed as elements of sequences are. -/
theorem elementKey?_ne_truth (v : Value) (b : Bool) :
    v.elementKey? ≠ some (.atom (.truth b)) := by
  cases v with
  | dateTime t =>
      obtain ⟨atom, hatom, hcases⟩ := elementKey?_dateTime t
      rw [hatom]
      rcases hcases with ⟨rfl, -⟩ | ⟨rfl, -⟩ <;> simp
  | _ => simp [elementKey?, numberKey_ne]

/-- The values that look-ups take for one another are those that are the same. -/
theorem same_iff_of_key? {v w : Value} {key : ValueKey} (h : v.key? = some key) :
    v.same w = true ↔ key.isReflexive = true ∧ w.key? = some key := by
  rw [same, Bool.and_eq_true, beq_iff_eq]
  cases hv : v.isBool with
  | true =>
      cases v with
      | bool b =>
          obtain rfl := Option.some.inj h
          cases w with
          | bool c => cases b <;> cases c <;> decide
          | _ => simp [isBool, key?, elementKey?_ne_truth]
      | _ => cases hv
  | false =>
      -- Only truth values have a key of their own apart from the one as an element.
      have h' : v.elementKey? = some key := by
        cases v <;> first | exact h | cases hv
      rw [equal_iff_of_elementKey? v w h']
      cases w with
      | bool c =>
          have hne : key ≠ .atom (.truth c) := by
            rintro rfl
            exact elementKey?_ne_truth v c h'
          simp [isBool, key?, hne.symm]
      | _ => simp [isBool, key?]

end PropertyGraph.Value
