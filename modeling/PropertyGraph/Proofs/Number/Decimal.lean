import Mathlib.Algebra.Order.Ring.Nat
import Mathlib.Tactic.Ring
import PropertyGraph.Number.Shortest

/-!
Decimals are read by one rounding of their exact value, whatever their exponent: where a very large
or very small one is not carried out, rounding would give the same. So equal values are read alike,
and the shortest decimal of a number is read as that number.
-/

namespace PropertyGraph

/-- The exponent is a variable, so that no power is computed. -/
theorem unitsPerOne_eq {bits : Nat} (h : bits = 1074) : unitsPerOne = 2 ^ bits :=
  (congrArg (Nat.pow 2) h).symm

theorem Representable.lt {units bits : Nat} (h : Representable units) (hbits : bits = 2098) :
    units < 2 ^ bits :=
  Nat.lt_of_lt_of_eq h.1 (congrArg (Nat.pow 2) hbits).symm

theorem spacing_pos (n : Nat) : 0 < spacing n := Nat.pow_pos (by decide)

theorem roundDiv_scale {scale : Nat} (h : 0 < scale) (num den : Nat) :
    roundDiv (num * scale) (den * scale) = roundDiv num den := by
  unfold roundDiv
  rw [Nat.mul_div_mul_right _ _ h, Nat.mul_mod_mul_right, ← Nat.mul_assoc]
  simp only [Nat.mul_lt_mul_right h]

theorem roundSignificant_eq (num den : Nat) :
    roundSignificant num den =
      roundDiv num (den * spacing (num / den)) * spacing (num / den) :=
  rfl

theorem roundSignificant_scale {scale : Nat} (h : 0 < scale) (num den : Nat) :
    roundSignificant (num * scale) (den * scale) = roundSignificant num den := by
  rw [roundSignificant_eq, roundSignificant_eq, Nat.mul_div_mul_right _ _ h, Nat.mul_right_comm,
    roundDiv_scale h]

/-- A number of at most 53 binary digits is rounded to itself. -/
theorem roundSignificant_of_representable {units : Nat} (h : Representable units) :
    roundSignificant units 1 = units := by
  have hdvd := Nat.dvd_of_mod_eq_zero h.2
  rw [roundSignificant_eq, Nat.div_one, Nat.one_mul]
  nth_rewrite 1 [← Nat.div_mul_cancel hdvd]
  rw [roundDiv_self_mul (spacing_pos units), Nat.div_mul_cancel hdvd]

/-- Less than half a unit is rounded to nothing. -/
theorem roundSignificant_of_small {num den : Nat} (h : 2 * num < den) :
    roundSignificant num den = 0 := by
  have hlt : num < den := by omega
  have hone : spacing 0 = 1 := by decide
  have hdown : roundDiv num den = 0 := by
    simp [roundDiv, Nat.div_eq_of_lt hlt, Nat.mod_eq_of_lt hlt, h]
  rw [roundSignificant_eq, Nat.div_eq_of_lt hlt, hone, Nat.mul_one, Nat.mul_one, hdown]

theorem roundDiv_ge (num den : Nat) : num / den ≤ roundDiv num den := by
  unfold roundDiv
  dsimp only
  split
  · exact Nat.le_refl _
  · split
    · exact Nat.le_succ _
    · exact Nat.le_add_right _ _

/-- Rounding does not go below a power of two. -/
theorem two_pow_le_roundSignificant {bits num den : Nat} (h : 2 ^ bits ≤ num / den) :
    2 ^ bits ≤ roundSignificant num den := by
  have hne : num / den ≠ 0 := by
    intro hzero
    rw [hzero] at h
    exact absurd h (Nat.not_le.2 (Nat.pow_pos (by decide)))
  have hdvd : spacing (num / den) ∣ 2 ^ (num / den).log2 := Nat.pow_dvd_pow 2 (Nat.sub_le _ _)
  rw [roundSignificant_eq]
  calc
    2 ^ bits ≤ 2 ^ (num / den).log2 := Nat.pow_le_pow_right (by decide) ((Nat.le_log2 hne).2 h)
    _ = 2 ^ (num / den).log2 / spacing (num / den) * spacing (num / den) :=
        (Nat.div_mul_cancel hdvd).symm
    _ ≤ num / den / spacing (num / den) * spacing (num / den) :=
        Nat.mul_le_mul_right _ (Nat.div_le_div_right (Nat.log2_self_le hne))
    _ = num / (den * spacing (num / den)) * spacing (num / den) := by rw [Nat.div_div_eq_div_mul]
    _ ≤ roundDiv num (den * spacing (num / den)) * spacing (num / den) :=
        Nat.mul_le_mul_right _ (roundDiv_ge _ _)

namespace Double

theorem ofUnits_of_representable {negative : Bool} {units : Nat} (h : Representable units) :
    ofUnits negative units = finite negative units h := by
  rw [ofUnits, dif_pos h]

theorem not_representable_of_le {bits units : Nat} (hbits : 2098 ≤ bits) (h : 2 ^ bits ≤ units) :
    ¬ Representable units := by
  intro hrepresentable
  obtain ⟨limit, hlimit⟩ : ∃ limit, limit = 2098 := ⟨_, rfl⟩
  have hle : 2 ^ limit ≤ units :=
    (Nat.pow_le_pow_right (by decide) (hlimit.trans_le hbits)).trans h
  exact absurd (hrepresentable.lt hlimit) (Nat.not_lt.2 hle)

theorem ofUnits_of_large {negative : Bool} {bits num : Nat} (hbits : 2098 ≤ bits)
    (h : 2 ^ bits ≤ num) : ofUnits negative (roundSignificant num 1) = infinite negative := by
  have hround : 2 ^ bits ≤ roundSignificant num 1 :=
    two_pow_le_roundSignificant (h.trans_eq (Nat.div_one num).symm)
  rw [ofUnits, dif_neg (not_representable_of_le hbits hround)]

end Double

namespace Decimal

/-- The magnitude that a decimal is rounded to, in units. -/
def units (d : Decimal) : Nat :=
  roundSignificant (d.digits * Nat.pow 10 d.exponent.toNat * unitsPerOne)
    (Nat.pow 10 (-d.exponent).toNat)

theorem two_pow_le_ten_pow (exponent : Nat) : 2 ^ (3 * exponent) ≤ 10 ^ exponent := by
  rw [Nat.pow_mul]
  exact Nat.pow_le_pow_left (by decide) exponent

theorem units_of_zero {d : Decimal} (h : d.digits = 0) : d.units = 0 := by
  rw [units, h, Nat.zero_mul, Nat.zero_mul]
  exact roundSignificant_of_small (Nat.pow_pos (by decide))

theorem units_of_nonneg {d : Decimal} (h : 0 ≤ d.exponent) :
    d.units = roundSignificant (d.digits * Nat.pow 10 d.exponent.toNat * unitsPerOne) 1 := by
  have hzero : (-d.exponent).toNat = 0 := by omega
  rw [units, hzero]

theorem units_of_neg {d : Decimal} (h : d.exponent < 0) :
    d.units = roundSignificant (d.digits * unitsPerOne) (Nat.pow 10 (-d.exponent).toNat) := by
  have hzero : d.exponent.toNat = 0 := by omega
  have hone : Nat.pow 10 0 = 1 := rfl
  rw [units, hzero, hone, Nat.mul_one]

theorem large_of_exponent {d : Decimal} (hdigits : d.digits ≠ 0) {bits : Nat}
    (hbits : bits = 1074) :
    2 ^ (3 * d.exponent.toNat + bits) ≤
      d.digits * Nat.pow 10 d.exponent.toNat * unitsPerOne := by
  rw [unitsPerOne_eq hbits, Nat.pow_add]
  refine Nat.mul_le_mul_right _ ((two_pow_le_ten_pow _).trans ?_)
  exact Nat.le_mul_of_pos_left _ (Nat.pos_of_ne_zero hdigits)

theorem units_of_tiny {d : Decimal} (h : d.exponent + (d.digits.log2 : Int) < -1200) :
    d.units = 0 := by
  obtain ⟨bits, hbits⟩ : ∃ bits, bits = 1074 := ⟨_, rfl⟩
  have hexponent : d.digits.log2 + 1 + bits + 1 ≤ (-d.exponent).toNat := by omega
  rw [units_of_neg (by omega), unitsPerOne_eq hbits]
  refine roundSignificant_of_small ?_
  calc
    2 * (d.digits * 2 ^ bits) < 2 * (2 ^ (d.digits.log2 + 1) * 2 ^ bits) := by
        refine Nat.mul_lt_mul_of_pos_left (Nat.mul_lt_mul_of_pos_right ?_ ?_) (by decide)
        · exact Nat.lt_log2_self
        · exact Nat.pow_pos (by decide)
    _ = 2 ^ (d.digits.log2 + 1 + bits + 1) := by
        ring
    _ ≤ 2 ^ (-d.exponent).toNat := Nat.pow_le_pow_right (by decide) hexponent
    _ ≤ 10 ^ (-d.exponent).toNat := Nat.pow_le_pow_left (by decide) _

/-- The decimal is read by one rounding of its exact value. -/
theorem toDouble_eq (negative : Bool) (d : Decimal) :
    d.toDouble negative = Double.ofUnits negative d.units := by
  unfold toDouble Double.ofDecimal
  split
  case isTrue hdigits => rw [units_of_zero hdigits]
  case isFalse hdigits =>
    split
    case isTrue hlarge =>
      -- Beyond the largest number rounding gives infinity, whatever the digits are.
      obtain ⟨bits, hbits⟩ : ∃ bits, bits = 1074 := ⟨_, rfl⟩
      rw [units_of_nonneg (by omega)]
      exact (Double.ofUnits_of_large (by omega) (large_of_exponent hdigits hbits)).symm
    case isFalse =>
      split
      case isTrue htiny => rw [units_of_tiny htiny]
      case isFalse =>
        split
        case isTrue hnonneg => rw [units_of_nonneg hnonneg, Double.ofRatio]
        case isFalse hneg => rw [units_of_neg (by omega), Double.ofRatio]

/-- A factor of ten can stand in the digits or in the exponent. -/
theorem units_shift (digits : Nat) (exponent : Int) :
    units ⟨digits * 10, exponent⟩ = units ⟨digits, exponent + 1⟩ := by
  by_cases h : 0 ≤ exponent
  · rw [units_of_nonneg h, units_of_nonneg (by simpa using Int.le_add_one h)]
    have hsucc : (exponent + 1).toNat = exponent.toNat + 1 := by omega
    simp only [hsucc]
    rw [Nat.pow_eq, Nat.pow_eq, Nat.pow_succ]
    congr 2
    ring
  · by_cases hone : exponent = -1
    -- The power of ten moves from below the line to above it.
    · subst hone
      rw [units_of_neg (Int.negSucc_lt_zero 0), units_of_nonneg (Int.le_refl 0)]
      have hscale := roundSignificant_scale (by decide : 0 < 10) (digits * unitsPerOne) 1
      rw [Nat.one_mul, Nat.mul_right_comm] at hscale
      simpa using hscale
    · rw [units_of_neg (by simpa using h), units_of_neg (by show exponent + 1 < 0; omega)]
      have hsucc : (-exponent).toNat = (-(exponent + 1)).toNat + 1 := by omega
      simp only [hsucc]
      rw [Nat.pow_eq, Nat.pow_eq, Nat.pow_succ, Nat.mul_right_comm]
      exact roundSignificant_scale (by decide) _ _

theorem units_append_zeros (digits : Nat) (exponent : Int) (count : Nat) :
    units ⟨digits * 10 ^ count, exponent⟩ = units ⟨digits, exponent + count⟩ := by
  induction count generalizing exponent with
  | zero => simp
  | succ count ih =>
      rw [Nat.pow_succ, ← Nat.mul_assoc, units_shift, ih]
      congr 2
      omega

/-- Dropping zeros at the end keeps the value. -/
theorem units_trim (d : Decimal) : d.trim.units = d.units := by
  induction hsize : d.digits using Nat.strongRecOn generalizing d with
  | _ size ih =>
      unfold trim
      split
      · rfl
      · rename_i hzeros
        rw [not_or, not_not] at hzeros
        have hlt : d.digits / 10 < size := by omega
        rw [ih _ hlt ⟨d.digits / 10, d.exponent + 1⟩ rfl, ← units_shift]
        have hdigits : d.digits / 10 * 10 = d.digits := by omega
        rw [hdigits]

theorem units_exact {units : Nat} (h : Representable units) : (exact units).units = units := by
  obtain ⟨bits, hbits⟩ : ∃ bits, bits = 1074 := ⟨_, rfl⟩
  have hexact : exact units = ⟨units * 5 ^ bits, -bits⟩ := by
    have hneg : (-1074 : Int) = -bits := by omega
    rw [exact, ← hbits, Nat.pow_eq, hneg]
  have hexponent : (- -(bits : Int)).toNat = bits := by omega
  rw [hexact, units_of_neg (by show -(bits : Int) < 0; omega), unitsPerOne_eq hbits]
  simp only [hexponent]
  rw [Nat.mul_assoc, ← Nat.mul_pow, Nat.pow_eq]
  have hscale := roundSignificant_scale (Nat.pow_pos (by decide) : 0 < 10 ^ bits) units 1
  rw [Nat.one_mul] at hscale
  rw [hscale, roundSignificant_of_representable h]

theorem units_of_readsBack {units : Nat} (h : Representable units) {d : Decimal}
    (hreads : d.ReadsBack units) : d.units = units := by
  rw [ReadsBack, toDouble_eq, Double.ofUnits_of_representable h, Double.ofUnits] at hreads
  split at hreads
  · exact (Double.finite.inj hreads).2
  · cases hreads

/-- The shortest decimal of a number is read as the number. -/
theorem units_shortest {units : Nat} (h : Representable units) :
    (shortest units).units = units := by
  unfold shortest
  cases hgrid : (List.range 17).findSome? fun n : Nat =>
      onGrid units (magnitude units - (n + 1)) with
  | none => exact units_exact h
  | some d =>
      obtain ⟨n, -, hn⟩ := List.exists_of_findSome?_eq_some hgrid
      exact units_of_readsBack h (readsBack_of_onGrid hn)

end Decimal

end PropertyGraph
