import PropertyGraph.Proofs.Number.Order
import PropertyGraph.Proofs.Value.Key

/-!
What a value is made of. The items of a tuple are parts of it, as far down as tuples go. A value can
be filed unless a part of it is a list or a mapping, and what is filed is found again unless a part
of it is NaN.
-/

namespace PropertyGraph.Value

/-- The value passes a test, or a part of an item of it does if it is a tuple. -/
inductive HasPart (test : Value → Prop) : Value → Prop where
  | self {value : Value} : test value → HasPart test value
  | item {items : List Value} {value : Value} :
    value ∈ items → HasPart test value → HasPart test (.tuple items)

/-- Lists and mappings. -/
def IsMutable : Value → Prop
  | .list _ | .dict _ => True
  | _ => False

def IsNan (value : Value) : Prop := value = .float .nan

variable {test : Value → Prop}

theorem hasPart_tuple_iff {items : List Value} (h : ¬ test (.tuple items)) :
    HasPart test (.tuple items) ↔ ∃ value ∈ items, HasPart test value := by
  constructor
  · intro hpart
    cases hpart with
    | self htest => exact absurd htest h
    | item hitem hpart => exact ⟨_, hitem, hpart⟩
  · rintro ⟨value, hitem, hpart⟩
    exact .item hitem hpart

/-- A value that is no tuple is its only part. -/
theorem hasPart_iff_of_ne {value : Value} (h : ∀ items, value ≠ .tuple items) :
    HasPart test value ↔ test value := by
  constructor
  · intro hpart
    cases hpart with
    | self htest => exact htest
    | item => exact absurd rfl (h _)
  · exact .self

theorem numberKey_eq_nan_iff (n : Number) : numberKey n = .nan ↔ n = .float .nan := by
  have hplace : numberKey n = .nan ↔ n.place? = none := by
    unfold numberKey
    cases n.place? <;> simp
  rw [hplace]
  cases n with
  | int n => exact iff_of_false nofun nofun
  | float x =>
      rw [← Option.not_isSome_iff_eq_none, Number.float.injEq]
      exact (not_congr Double.place?_isSome_iff).trans Classical.not_not

mutual

theorem elementKey?_eq_none_iff : ∀ value : Value,
    value.elementKey? = none ↔ value.HasPart IsMutable
  | .tuple items => by
      rw [hasPart_tuple_iff id, ← elementKeys?_eq_none_iff items]
      exact Option.map_eq_none_iff
  | .null | .bool _ | .int _ | .float _ | .str _ | .date _ | .dateTime _ | .bytes _ | .list _
  | .dict _ => by
      rw [hasPart_iff_of_ne]
      · simp [elementKey?, IsMutable]
      · nofun

theorem elementKeys?_eq_none_iff : ∀ items : List Value,
    elementKeys? items = none ↔ ∃ value ∈ items, value.HasPart IsMutable
  | [] => by simp [elementKeys?]
  | value :: rest => by
      have hvalue := elementKey?_eq_none_iff value
      have hrest := elementKeys?_eq_none_iff rest
      simp only [List.mem_cons, exists_eq_or_imp]
      rw [← hvalue, ← hrest, elementKeys?]
      cases value.elementKey? <;> cases elementKeys? rest <;> simp

end

mutual

/-- A key equals itself unless a part of its value is NaN. -/
theorem isReflexive_eq_false_iff : ∀ (value : Value) {key : ValueKey},
    value.elementKey? = some key → (key.isReflexive = false ↔ value.HasPart IsNan)
  | .tuple items, key, h => by
      obtain ⟨keys, hkeys, rfl⟩ := Option.map_eq_some_iff.1 h
      rw [hasPart_tuple_iff Value.noConfusion, ValueKey.isReflexive]
      exact allReflexive_eq_false_iff items hkeys
  | .dateTime t, key, h => by
      obtain ⟨atom, hatom, hcases⟩ := elementKey?_dateTime t
      obtain rfl : .atom atom = key := by simpa [hatom] using h
      rw [hasPart_iff_of_ne]
      · rcases hcases with ⟨rfl, -⟩ | ⟨rfl, -⟩ <;> simp [ValueKey.isReflexive, IsNan]
      · nofun
  | .null, key, h | .bool _, key, h | .int _, key, h | .float _, key, h | .str _, key, h
  | .date _, key, h | .bytes _, key, h => by
      obtain rfl := Option.some.inj h
      rw [hasPart_iff_of_ne]
      · simp [ValueKey.isReflexive, numberKey_eq_nan_iff, IsNan]
      · nofun

theorem allReflexive_eq_false_iff : ∀ (items : List Value) {keys : List ValueKey},
    elementKeys? items = some keys →
    (ValueKey.allReflexive keys = false ↔ ∃ value ∈ items, value.HasPart IsNan)
  | [], keys, h => by
      obtain rfl : [] = keys := by simpa [elementKeys?] using h
      simp [ValueKey.allReflexive]
  | value :: rest, keys, h => by
      simp only [elementKeys?, Option.bind_eq_bind, Option.bind_eq_some_iff,
        Option.pure_def, Option.some.injEq] at h
      obtain ⟨key, hkey, restKeys, hrest, rfl⟩ := h
      simp only [List.mem_cons, exists_eq_or_imp]
      rw [← isReflexive_eq_false_iff value hkey, ← allReflexive_eq_false_iff rest hrest,
        ValueKey.allReflexive, Bool.and_eq_false_iff]

end

/-- A value is filed unless a part of it is a list or a mapping. -/
theorem isScalar_eq_false_iff {value : Value} :
    value.isScalar = false ↔ value.HasPart IsMutable := by
  rw [← elementKey?_eq_none_iff]
  cases value <;> simp [isScalar, key?, elementKey?]

/-- A value that can be filed is the same as itself unless a part of it is NaN. -/
theorem same_self {value : Value} (hscalar : value.isScalar = true)
    (hnan : ¬ value.HasPart IsNan) : value.same value = true := by
  obtain ⟨key, hkey⟩ := Option.isSome_iff_exists.1 hscalar
  refine (same_iff_of_key? hkey).2 ⟨?_, hkey⟩
  cases value with
  | bool b =>
      obtain rfl := Option.some.inj hkey
      rfl
  | _ => exact Bool.of_not_eq_false fun h => hnan ((isReflexive_eq_false_iff _ hkey).1 h)

end PropertyGraph.Value
