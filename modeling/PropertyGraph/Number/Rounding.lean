/-!
Rounding of exact quotients, in natural numbers. `roundDiv` gives the nearest whole number, and
`roundSignificant` the nearest number of 53 significant binary digits; ties go to the even
neighbour.
-/

namespace PropertyGraph

/-- The whole number nearest to `num / den`; a tie goes to the even one. -/
def roundDiv (num den : Nat) : Nat :=
  let quotient := num / den
  let excess := 2 * (num % den)
  if excess < den then quotient
  else if den < excess then quotient + 1
  else quotient + quotient % 2

/-- The distance between neighbouring numbers of 53 significant binary digits, at `n`. -/
def spacing (n : Nat) : Nat := Nat.pow 2 (n.log2 - 52)

/-- The whole number of at most 53 significant binary digits nearest to `num / den`. -/
def roundSignificant (num den : Nat) : Nat :=
  let step := spacing (num / den)
  roundDiv num (den * step) * step

/-- The largest number whose square is at most `n`. -/
def floorSqrt (n : Nat) : Nat :=
  if h : n = 0 then 0
  else
    let half := 2 * floorSqrt (n / 4)
    if (half + 1) * (half + 1) ≤ n then half + 1 else half
termination_by n

theorem roundDiv_self_mul {den : Nat} (h : 0 < den) (n : Nat) : roundDiv (n * den) den = n := by
  simp [roundDiv, Nat.mul_div_cancel _ h, h]

end PropertyGraph
