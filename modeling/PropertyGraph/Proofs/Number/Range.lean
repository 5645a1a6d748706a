import PropertyGraph.Number.Basic
import PropertyGraph.Proofs.Except
import PropertyGraph.Proofs.Number.Decimal

/-!
The range of binary64 numbers. A quotient is rounded to a finite one exactly if it is below the
middle between the largest of them and the power of two that follows it: the middle itself, a tie,
is rounded up. So arithmetic has no result where an integer from there on meets a float, or a mean
of integers lies there.
-/

namespace PropertyGraph

/-- Half a unit below an even number is rounded to that number. -/
theorem roundDiv_lt_iff {num den n : Nat} (hden : 0 < den) (heven : n % 2 = 0) :
    roundDiv num den < n ↔ 2 * num + den < 2 * (n * den) := by
  have hnum := Nat.div_add_mod num den
  have hmod := Nat.mod_lt num hden
  unfold roundDiv
  dsimp only
  generalize num / den = quotient at *
  generalize num % den = rest at *
  rcases Nat.lt_trichotomy (quotient + 1) n with hbelow | rfl | habove
  · have hmul : (quotient + 2) * den ≤ n * den := Nat.mul_le_mul_right den hbelow
    have hexpand : (quotient + 2) * den = den * quotient + 2 * den := by ring
    refine iff_of_true ?_ (by omega)
    split
    · omega
    · split <;> omega
  · have hexpand : (quotient + 1) * den = den * quotient + den := by ring
    split
    · omega
    · split <;> omega
  · have hmul : n * den ≤ quotient * den := Nat.mul_le_mul_right den (by omega)
    have hexpand : quotient * den = den * quotient := Nat.mul_comm _ _
    refine iff_of_false ?_ (by omega)
    split
    · omega
    · split <;> omega

theorem roundDiv_le_succ (num den : Nat) : roundDiv num den ≤ num / den + 1 := by
  unfold roundDiv
  dsimp only
  split
  · exact Nat.le_succ _
  · split
    · exact Nat.le_refl _
    · exact Nat.add_le_add_left (Nat.le_of_lt_succ (Nat.mod_lt _ (by decide))) _

/-- A multiple of a power of two by at most 53 binary digits has no more digits. -/
theorem mod_spacing_eq_zero {significand scale : Nat} (h : significand ≤ 2 ^ 53) :
    significand * 2 ^ scale % spacing (significand * 2 ^ scale) = 0 := by
  apply Nat.mod_eq_zero_of_dvd
  rcases Nat.lt_or_eq_of_le h with hlt | rfl
  · refine dvd_mul_of_dvd_right (Nat.pow_dvd_pow 2 ?_) significand
    by_cases hzero : significand * 2 ^ scale = 0
    · simp [hzero]
    · have hlog : (significand * 2 ^ scale).log2 < 53 + scale := by
        rw [Nat.log2_lt hzero, Nat.pow_add]
        exact Nat.mul_lt_mul_of_pos_right hlt (Nat.pow_pos (by decide))
      omega
  · rw [← Nat.pow_add, spacing, Nat.log2_two_pow]
    exact Nat.pow_dvd_pow 2 (Nat.sub_le _ _)

/-- The significand that a quotient is rounded to has at most 53 binary digits, or is the power of
two that follows them. -/
theorem significand_le (num den : Nat) :
    roundDiv num (den * spacing (num / den)) ≤ 2 ^ 53 := by
  refine (roundDiv_le_succ _ _).trans (Nat.succ_le_of_lt ?_)
  rw [← Nat.div_div_eq_div_mul, Nat.div_lt_iff_lt_mul (spacing_pos _), spacing, Nat.pow_eq,
    ← Nat.pow_add]
  exact Nat.lt_log2_self.trans_le (Nat.pow_le_pow_right (by decide) (by omega))

theorem roundSignificant_mod_spacing (num den : Nat) :
    roundSignificant num den % spacing (roundSignificant num den) = 0 :=
  mod_spacing_eq_zero (significand_le num den)

/-- A quotient is rounded below a power of two exactly if it lies further below than a quarter of the
spacing there, which is half the spacing before it. -/
theorem roundSignificant_lt_two_pow_iff {num den scale : Nat} (hden : 0 < den) :
    roundSignificant num den < 2 ^ (53 + scale) ↔
      2 * num + den * 2 ^ scale < 2 * (den * 2 ^ (53 + scale)) := by
  have hsplit : 2 ^ (53 + scale) = 2 ^ 53 * 2 ^ scale := Nat.pow_add 2 53 scale
  have hstep : spacing (num / den) = 2 ^ ((num / den).log2 - 52) := rfl
  rcases Nat.lt_trichotomy ((num / den).log2 - 52) scale with hbelow | hsame | habove
  · have hround : roundSignificant num den < 2 ^ (53 + scale) := by
      rw [roundSignificant_eq, hsplit]
      refine (Nat.mul_le_mul_right _ (significand_le num den)).trans_lt ?_
      exact Nat.mul_lt_mul_of_pos_left (Nat.pow_lt_pow_right (by decide) hbelow) (by decide)
    have hnum : num < 2 ^ (52 + scale) * den := by
      rw [← Nat.div_lt_iff_lt_mul hden]
      exact Nat.lt_log2_self.trans_le (Nat.pow_le_pow_right (by decide) (by omega))
    have hdouble : 2 * (2 ^ (52 + scale) * den) = den * 2 ^ (53 + scale) := by ring
    have hscale : den * 2 ^ scale ≤ den * 2 ^ (53 + scale) :=
      Nat.mul_le_mul_left den (Nat.pow_le_pow_right (by decide) (Nat.le_add_left _ _))
    exact iff_of_true hround (by omega)
  · have hpos : 0 < 2 ^ scale := Nat.pow_pos (by decide)
    rw [roundSignificant_eq, hstep, hsame, hsplit, Nat.mul_lt_mul_right hpos,
      roundDiv_lt_iff (Nat.mul_pos hden hpos) (by decide), Nat.mul_left_comm (2 ^ 53)]
  · have hlarge : 2 ^ (53 + scale) ≤ num / den := by
      refine (Nat.le_log2 fun hzero => ?_).1 (by omega)
      rw [hzero] at habove
      exact absurd habove (Nat.not_lt_zero _)
    have hnum : den * 2 ^ (53 + scale) ≤ num :=
      Nat.mul_comm den _ ▸ (Nat.le_div_iff_mul_le hden).1 hlarge
    exact iff_of_false (Nat.not_lt.2 (two_pow_le_roundSignificant hlarge)) (by omega)

namespace Double

/-- The least whole number that is rounded to infinity. -/
def overflowThreshold : Nat := Nat.pow 2 1024 - Nat.pow 2 970

theorem representable_roundSignificant_iff {num den : Nat} :
    Representable (roundSignificant num den) ↔ roundSignificant num den < Nat.pow 2 2098 :=
  and_iff_left (roundSignificant_mod_spacing num den)

theorem isFinite_ofUnits {negative : Bool} {units : Nat} :
    (ofUnits negative units).isFinite = true ↔ Representable units := by
  unfold ofUnits
  split
  case isTrue h => exact iff_of_true rfl h
  case isFalse h => exact iff_of_false Bool.false_ne_true h

/-- A quotient of whole numbers is rounded to a finite number exactly if it is below the
threshold. -/
theorem isFinite_ofRatio_iff {negative : Bool} {n count : Nat} (hcount : 0 < count) :
    (ofRatio negative (n * unitsPerOne) count).isFinite = true ↔
      n < count * overflowThreshold := by
  -- The exponents are variables, so that no power is computed.
  obtain ⟨bits, hbits⟩ : ∃ bits, bits = 1074 := ⟨_, rfl⟩
  obtain ⟨low, hlow⟩ : ∃ low, low = 970 := ⟨_, rfl⟩
  have hlimit : Nat.pow 2 2098 = 2 ^ (53 + (low + 1 + bits)) :=
    congrArg (Nat.pow 2) (by omega)
  have hthreshold : overflowThreshold = 2 ^ (54 + low) - 2 ^ low :=
    congrArg₂ (Nat.pow 2 · - Nat.pow 2 ·) (by omega) hlow.symm
  rw [ofRatio, isFinite_ofUnits, representable_roundSignificant_iff, hlimit,
    roundSignificant_lt_two_pow_iff hcount, unitsPerOne_eq hbits, hthreshold, Nat.mul_sub,
    Nat.lt_sub_iff_add_lt]
  have hpos : 0 < 2 * 2 ^ bits := Nat.mul_pos (by decide) (Nat.pow_pos (by decide))
  have hleft : 2 * (n * 2 ^ bits) + count * 2 ^ (low + 1 + bits) =
      (n + count * 2 ^ low) * (2 * 2 ^ bits) := by ring
  have hright : 2 * (count * 2 ^ (53 + (low + 1 + bits))) =
      count * 2 ^ (54 + low) * (2 * 2 ^ bits) := by ring
  rw [hleft, hright, Nat.mul_lt_mul_right hpos]

theorem isFinite_ofInt_iff {n : Int} :
    (ofInt n).isFinite = true ↔ n.natAbs < overflowThreshold := by
  rw [ofInt, isFinite_ofRatio_iff Nat.one_pos, Nat.one_mul]

end Double

namespace Number

/-- An integer that is near to no finite number meets a float. -/
inductive Clash : Number → Number → Prop
  | intFloat {n : Int} {x : Double} :
      Double.overflowThreshold ≤ n.natAbs → Clash (int n) (float x)
  | floatInt {x : Double} {n : Int} :
      Double.overflowThreshold ≤ n.natAbs → Clash (float x) (int n)

theorem toDouble_int_eq_error_iff {n : Int} {e : ArithmeticError} :
    (int n).toDouble = .error e ↔
      Double.overflowThreshold ≤ n.natAbs ∧ e = .integerTooLarge := by
  unfold toDouble
  dsimp only
  split
  case isTrue h =>
    refine iff_of_false nofun ?_
    rintro ⟨hle, -⟩
    exact Nat.not_lt.2 hle (Double.isFinite_ofInt_iff.1 h)
  case isFalse h =>
    have hle := Nat.not_lt.1 (mt Double.isFinite_ofInt_iff.2 h)
    rw [and_iff_right hle, Except.error.injEq, eq_comm]

theorem add_intFloat (n : Int) (x : Double) :
    (int n).add (float x) = (fun y => float (y + x)) <$> (int n).toDouble := by
  rw [add]
  · cases (int n).toDouble <;> rfl
  · nofun

theorem add_floatInt (x : Double) (n : Int) :
    (float x).add (int n) = (fun y => float (x + y)) <$> (int n).toDouble := by
  rw [add]
  · cases (int n).toDouble <;> rfl
  · nofun

/-- Two numbers have no sum exactly if they clash. -/
theorem add_eq_error_iff {a b : Number} {e : ArithmeticError} :
    a.add b = .error e ↔ Clash a b ∧ e = .integerTooLarge := by
  cases a with
  | int m =>
      cases b with
      | int n => exact iff_of_false nofun (nomatch ·.1)
      | float y =>
          rw [add_intFloat, map_eq_error_iff, toDouble_int_eq_error_iff]
          exact and_congr_left' ⟨.intFloat, fun | .intFloat h => h⟩
  | float x =>
      cases b with
      | int n =>
          rw [add_floatInt, map_eq_error_iff, toDouble_int_eq_error_iff]
          exact and_congr_left' ⟨.floatInt, fun | .floatInt h => h⟩
      | float y => exact iff_of_false nofun (nomatch ·.1)

/-- A number has no quotient by a count exactly if it is an integer and the quotient is out of
range. -/
theorem divCount_eq_error_iff {a : Number} {count : Nat} (hcount : 0 < count)
    {e : ArithmeticError} :
    a.divCount count = .error e ↔
      (∃ n, a = int n ∧ count * Double.overflowThreshold ≤ n.natAbs) ∧ e = .quotientTooLarge := by
  cases a with
  | int n =>
      unfold divCount
      dsimp only
      split
      case isTrue h =>
        refine iff_of_false nofun ?_
        rintro ⟨⟨_, heq, hle⟩, -⟩
        cases heq
        exact Nat.not_lt.2 hle ((Double.isFinite_ofRatio_iff hcount).1 h)
      case isFalse h =>
        have hle := Nat.not_lt.1 (mt (Double.isFinite_ofRatio_iff hcount).2 h)
        rw [and_iff_right ⟨n, rfl, hle⟩, Except.error.injEq, eq_comm]
  | float x =>
      refine iff_of_false nofun ?_
      rintro ⟨⟨_, heq, -⟩, -⟩
      cases heq

end Number

end PropertyGraph
