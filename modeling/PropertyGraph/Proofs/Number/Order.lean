import PropertyGraph.Number.Basic

/-!
The order of numbers, which is that of their places on the line. NaN has no place and is below
nothing; a number that is not above another one is at most the other one only if both have a place.
-/

namespace PropertyGraph

namespace Extended

theorem compare_swap (a b : Extended) : (compare a b).swap = compare b a := by
  cases a <;> cases b <;> simp [compare, Int.compare_swap]

instance transCmp_compare : Std.TransCmp compare where
  eq_swap {a b} := (compare_swap b a).symm
  isLE_trans {a b c} hab hbc := by
    cases a <;> cases b <;> cases c <;> simp_all [compare]
    exact Std.TransCmp.isLE_trans hab hbc

instance lawfulEqCmp_compare : Std.LawfulEqCmp compare where
  compare_self := compare_eq_eq_iff.2 rfl
  eq_of_compare := compare_eq_eq_iff.1

end Extended

namespace Double

theorem place?_isSome_iff {x : Double} : x.place?.isSome = true ↔ x ≠ nan := by
  cases x with
  | finite negative units h => simp [place?]
  | infinite negative => cases negative <;> simp [place?]
  | nan => simp [place?]

theorem ofUnits_ne_nan (negative : Bool) (units : Nat) : ofUnits negative units ≠ nan := by
  unfold ofUnits
  split <;> exact Double.noConfusion

theorem ofDecimal_ne_nan (negative : Bool) (digits : Nat) (exponent : Int) :
    ofDecimal negative digits exponent ≠ nan := by
  unfold ofDecimal
  split
  · exact ofUnits_ne_nan _ _
  split
  · exact Double.noConfusion
  split
  · exact ofUnits_ne_nan _ _
  split <;> exact ofUnits_ne_nan _ _

/-- The difference of two finite numbers is a number, though perhaps an infinite one. -/
theorem sub_ne_nan {x y : Double} (hx : x.isFinite = true) (hy : y.isFinite = true) :
    x - y ≠ nan := by
  cases x with
  | finite s a ha =>
      cases y with
      | finite t b hb =>
          show add (finite s a ha) (finite (!t) b hb) ≠ nan
          unfold add
          dsimp only
          split
          · exact ofUnits_ne_nan _ _
          · exact ofUnits_ne_nan _ _
      | infinite t => cases hy
      | nan => cases hy
  | infinite s => cases hx
  | nan => cases hx

end Double

namespace Number

/-- The number is a finite one, or an integer that is near to one. -/
def isFinite (a : Number) : Bool := a.nearest.isFinite

theorem sub_hasPlace {a b : Number} (ha : a.isFinite = true) (hb : b.isFinite = true) :
    (a - b).place?.isSome = true := by
  have hfloat : (float (a.nearest - b.nearest)).place?.isSome = true :=
    Double.place?_isSome_iff.2 (Double.sub_ne_nan ha hb)
  cases a with
  | int m =>
      cases b with
      | int n => rfl
      | float y => exact hfloat
  | float x => exact hfloat

theorem hasPlace_right_of_le {a b : Number} (h : a ≤ b) : b.place?.isSome = true := by
  rcases h with h | h <;>
    (rw [compare?_eq_places] at h
     obtain ⟨x, -, h⟩ := Option.bind_eq_some_iff.1 h
     obtain ⟨y, hy, -⟩ := Option.map_eq_some_iff.1 h
     rw [hy]
     rfl)

/-- Where both numbers have a place on the line, one of them is at most the other. -/
theorem le_of_not_lt {a b : Number} (ha : a.place?.isSome = true) (hb : b.place?.isSome = true)
    (h : ¬ a < b) : b ≤ a := by
  obtain ⟨x, hx⟩ := Option.isSome_iff_exists.1 ha
  obtain ⟨y, hy⟩ := Option.isSome_iff_exists.1 hb
  have hab : a.compare? b = some (x.compare y) := by rw [compare?_eq_places, hx, hy]; rfl
  have hba : b.compare? a = some (x.compare y).swap := by
    rw [compare?_eq_places, hx, hy, Extended.compare_swap]
    rfl
  cases hxy : x.compare y with
  | lt => exact absurd (hab.trans (congrArg some hxy)) h
  | eq => exact .inr (by rw [hba, hxy]; rfl)
  | gt => exact .inl (by rw [hba, hxy]; rfl)

end Number

end PropertyGraph
