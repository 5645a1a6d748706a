import PropertyGraph.Proofs.Number.Order
import PropertyGraph.Proofs.Number.Range

/-!
Differences of times. Rounding keeps the order of exact values, also where it leads to infinity, so
of two times that one clock shows the later one is no less past a third time.
-/

namespace PropertyGraph

theorem roundDiv_mono {num other den : Nat} (h : num ≤ other) :
    roundDiv num den ≤ roundDiv other den := by
  have hquotient : num / den ≤ other / den := Nat.div_le_div_right h
  by_cases hup : den < 2 * (other % den)
  · have hother : roundDiv other den = other / den + 1 := by
      simp [roundDiv, hup, Nat.not_lt_of_gt hup]
    rw [hother]
    exact (roundDiv_le_succ num den).trans (Nat.succ_le_succ hquotient)
  rcases Nat.lt_or_eq_of_le hquotient with hbelow | hsame
  · exact (roundDiv_le_succ num den).trans (hbelow.trans_le (roundDiv_ge other den))
  by_cases hdown : 2 * (num % den) < den
  · have hnum : roundDiv num den = num / den := by simp [roundDiv, hdown]
    rw [hnum]
    exact hquotient.trans (roundDiv_ge other den)
  · -- Both are half way between the same two whole numbers.
    have hnum := Nat.div_add_mod num den
    have hother := Nat.div_add_mod other den
    rw [← hsame] at hother
    obtain rfl : num = other := by omega
    exact Nat.le_refl _

/-- Rounding to 53 significant binary digits keeps order. Where the spacing grows, a power of two
stands between the two results. -/
theorem roundSignificant_mono {num other den : Nat} (h : num ≤ other) :
    roundSignificant num den ≤ roundSignificant other den := by
  have hquotient : num / den ≤ other / den := Nat.div_le_div_right h
  have hlog : (num / den).log2 ≤ (other / den).log2 := by
    by_cases hzero : num / den = 0
    · simp [hzero]
    · have hother : other / den ≠ 0 := fun h => hzero (Nat.le_zero.1 (h ▸ hquotient))
      exact (Nat.le_log2 hother).2 ((Nat.log2_self_le hzero).trans hquotient)
  rw [roundSignificant_eq num]
  rcases Nat.lt_or_eq_of_le (Nat.sub_le_sub_right hlog 52) with hbelow | hsame
  · have hlarge : 2 ^ (other / den).log2 ≤ other / den := Nat.log2_self_le (by
      intro hzero
      simp [hzero] at hbelow)
    calc
      roundDiv num (den * spacing (num / den)) * spacing (num / den)
          ≤ 2 ^ 53 * 2 ^ ((num / den).log2 - 52) :=
        Nat.mul_le_mul_right _ (significand_le num den)
      _ = 2 ^ (53 + ((num / den).log2 - 52)) := (Nat.pow_add 2 _ _).symm
      _ ≤ 2 ^ (other / den).log2 := Nat.pow_le_pow_right (by decide) (by omega)
      _ ≤ roundSignificant other den := two_pow_le_roundSignificant hlarge
  · have hstep : spacing (num / den) = spacing (other / den) := congrArg (Nat.pow 2) hsame
    rw [roundSignificant_eq other, hstep]
    exact Nat.mul_le_mul_right _ (roundDiv_mono h)

namespace Extended

/-- The place of the number nearest to a whole number of units. -/
def rounded (n : Int) : Extended :=
  if Representable (roundSignificant n.natAbs 1) then
    point (Double.signed (n < 0) (roundSignificant n.natAbs 1))
  else if n < 0 then bottom
  else top

/-- Rounding keeps the order of places, also where a place is too far out for a finite number. -/
theorem compare_rounded {m n : Int} (h : m ≤ n) :
    ((rounded m).compare (rounded n)).isLE = true := by
  have hlimit : ∀ k l : Nat, k ≤ l → Representable (roundSignificant l 1) →
      Representable (roundSignificant k 1) := by
    intro k l hle hlarge
    rw [Double.representable_roundSignificant_iff] at hlarge ⊢
    exact (roundSignificant_mono hle).trans_lt hlarge
  unfold rounded
  rcases Int.lt_or_le n 0 with hn | hn
  · -- Both are negative, so the first one has the larger magnitude.
    have hm : m < 0 := by omega
    have hround : roundSignificant n.natAbs 1 ≤ roundSignificant m.natAbs 1 :=
      roundSignificant_mono (by omega)
    have hfinite := hlimit n.natAbs m.natAbs (by omega)
    split
    · rw [if_pos (hfinite ‹_›)]
      simp [compare, Double.signed, hm, hn, Int.isLE_compare, hround]
    · split <;> simp [compare]
  · rcases Int.lt_or_le m 0 with hm | hm
    · split <;> split <;> simp [compare, Double.signed, hm, Int.not_lt.2 hn, Int.isLE_compare]
    · have hround : roundSignificant m.natAbs 1 ≤ roundSignificant n.natAbs 1 :=
        roundSignificant_mono (by omega)
      have hfinite := hlimit m.natAbs n.natAbs (by omega)
      split
      · split <;> simp [compare, Double.signed, Int.not_lt.2 hm, Int.not_lt.2 hn,
          Int.isLE_compare, hround]
      · rw [if_neg fun hlarge => ‹¬ _› (hfinite hlarge)]
        simp [compare, Int.not_lt.2 hm, Int.not_lt.2 hn]

end Extended

namespace Double

theorem representable_zero : Representable 0 := by decide +kernel

theorem place?_ofUnits (negative : Bool) (units : Nat) :
    (ofUnits negative units).place? =
      some (if Representable units then .point (signed negative units)
        else if negative then .bottom else .top) := by
  unfold ofUnits
  split
  · rfl
  · cases negative <;> rfl

theorem exists_point_of_isFinite {x : Double} (h : x.isFinite = true) :
    ∃ n, x.place? = some (.point n) := by
  cases x with
  | finite negative units representable => exact ⟨_, rfl⟩
  | infinite negative => cases h
  | nan => cases h

/-- The difference of two finite numbers is the exact one, rounded. -/
theorem place?_sub {x y : Double} {m n : Int} (hx : x.place? = some (.point m))
    (hy : y.place? = some (.point n)) : (x - y).place? = some (.rounded (m - n)) := by
  cases x with
  | nan => cases hx
  | infinite negative => cases negative <;> cases hx
  | finite s a ha =>
  cases y with
  | nan => cases hy
  | infinite negative => cases negative <;> cases hy
  | finite t b hb =>
    obtain rfl : signed s a = m := Extended.point.inj (Option.some.inj hx)
    obtain rfl : signed t b = n := Extended.point.inj (Option.some.inj hy)
    have hsum : signed s a + signed (!t) b = signed s a - signed t b := by
      cases t <;> simp [signed, Int.sub_eq_add_neg]
    show (add (finite s a ha) (finite (!t) b hb)).place? = _
    unfold add
    dsimp only
    rw [hsum]
    split
    · next hzero =>
      have hround : roundSignificant 0 1 = 0 := by decide
      rw [hzero, place?_ofUnits, Extended.rounded, Int.natAbs_zero, hround,
        if_pos representable_zero, if_pos representable_zero]
      simp [signed]
    · rw [ofRatio, place?_ofUnits, Extended.rounded]
      simp

end Double

namespace Number

theorem le_iff {a b : Number} :
    a ≤ b ↔ ∃ x y, a.place? = some x ∧ b.place? = some y ∧ (x.compare y).isLE = true := by
  show a.compare? b = some .lt ∨ a.compare? b = some .eq ↔ _
  rw [compare?_eq_places]
  cases a.place? with
  | none => simp
  | some x =>
      cases b.place? with
      | none => simp
      | some y => cases hxy : x.compare y <;> simp [hxy]

theorem lt_iff {a b : Number} :
    a < b ↔ ∃ x y, a.place? = some x ∧ b.place? = some y ∧ x.compare y = .lt := by
  show a.compare? b = some .lt ↔ _
  rw [compare?_eq_places]
  cases a.place? with
  | none => simp
  | some x =>
      cases b.place? with
      | none => simp
      | some y => simp

theorem lt_of_lt_of_le {a b c : Number} (hab : a < b) (hbc : b ≤ c) : a < c := by
  obtain ⟨x, y, hx, hy, hxy⟩ := lt_iff.1 hab
  obtain ⟨_, z, hy', hz, hyz⟩ := le_iff.1 hbc
  rw [hy] at hy'
  obtain rfl := Option.some.inj hy'
  exact lt_iff.2 ⟨x, z, hx, hz, Std.TransCmp.lt_of_lt_of_isLE hxy hyz⟩

/-- A number is not above another one exactly if it is at most that, where both have a place. -/
theorem not_lt_iff_le {a b : Number} (ha : a.place?.isSome = true) (hb : b.place?.isSome = true) :
    ¬ a < b ↔ b ≤ a := by
  refine ⟨le_of_not_lt ha hb, fun hba hab => ?_⟩
  obtain ⟨x, y, hx, hy, hxy⟩ := lt_iff.1 (lt_of_lt_of_le hab hba)
  rw [hx] at hy
  obtain rfl := Option.some.inj hy
  rw [Extended.compare_eq_eq_iff.2 rfl] at hxy
  cases hxy

/-- Every number but NaN has a place on the line. -/
theorem place?_isSome_iff {a : Number} : a.place?.isSome = true ↔ a ≠ float .nan := by
  cases a with
  | int n => exact iff_of_true rfl nofun
  | float x => rw [ne_eq, float.injEq]; exact Double.place?_isSome_iff

theorem int_le_int_iff {m n : Int} : int m ≤ int n ↔ m ≤ n := by
  show some (compare m n) = some .lt ∨ some (compare m n) = some .eq ↔ m ≤ n
  rw [← Int.isLE_compare]
  cases compare m n <;> simp

/-- What a clock shows: integers, or finite binary64 numbers, that never go back. -/
structure IsClock (readings : List Number) : Prop where
  kind : (∀ time ∈ readings, ∃ n, time = int n) ∨
    ∀ time ∈ readings, ∃ x : Double, time = float x ∧ x.isFinite = true
  forward : readings.Pairwise (· ≤ ·)

namespace IsClock

variable {readings : List Number}

/-- The later a reading is, the further it is past another one. -/
theorem sub_mono (h : IsClock readings) {start time later : Number} (hstart : start ∈ readings)
    (htime : time ∈ readings) (hlater : later ∈ readings) (hle : time ≤ later) :
    time - start ≤ later - start := by
  rcases h.kind with hint | hfloat
  · obtain ⟨s, rfl⟩ := hint start hstart
    obtain ⟨m, rfl⟩ := hint time htime
    obtain ⟨n, rfl⟩ := hint later hlater
    rw [int_le_int_iff] at hle
    exact int_le_int_iff.2 (Int.sub_le_sub_right hle s)
  · obtain ⟨x, rfl, hx⟩ := hfloat start hstart
    obtain ⟨y, rfl, hy⟩ := hfloat time htime
    obtain ⟨z, rfl, hz⟩ := hfloat later hlater
    obtain ⟨s, hs⟩ := Double.exists_point_of_isFinite hx
    obtain ⟨m, hm⟩ := Double.exists_point_of_isFinite hy
    obtain ⟨n, hn⟩ := Double.exists_point_of_isFinite hz
    obtain ⟨p, q, hp, hq, hpq⟩ := le_iff.1 hle
    obtain rfl := Option.some.inj (hm.symm.trans hp)
    obtain rfl := Option.some.inj (hn.symm.trans hq)
    have hmn : m ≤ n := Int.isLE_compare.1 hpq
    exact le_iff.2 ⟨_, _, Double.place?_sub hm hs, Double.place?_sub hn hs,
      Extended.compare_rounded (Int.sub_le_sub_right hmn s)⟩

/-- The difference of two readings has a place on the line. -/
theorem sub_hasPlace (h : IsClock readings) {start time : Number} (hstart : start ∈ readings)
    (htime : time ∈ readings) : (time - start).place?.isSome = true := by
  rcases h.kind with hint | hfloat
  · obtain ⟨m, rfl⟩ := hint start hstart
    obtain ⟨n, rfl⟩ := hint time htime
    rfl
  · obtain ⟨x, rfl, hx⟩ := hfloat start hstart
    obtain ⟨y, rfl, hy⟩ := hfloat time htime
    exact Number.sub_hasPlace hy hx

end IsClock

end Number

end PropertyGraph
