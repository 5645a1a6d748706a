import PropertyGraph.Number.Double
import PropertyGraph.Text.Digit

/-!
The shortest decimal of a binary64 number: of the decimals with the fewest digits that are read
as the number, the one nearest to it.
-/

namespace PropertyGraph

/-- The value `digits * 10 ^ exponent`. -/
structure Decimal where
  digits : Nat
  exponent : Int
  deriving DecidableEq

namespace Decimal

def toDouble (negative : Bool) (d : Decimal) : Double :=
  Double.ofDecimal negative d.digits d.exponent

/-- The decimal is read as the positive number of so many units. -/
def ReadsBack (units : Nat) (d : Decimal) : Prop :=
  d.toDouble false = Double.ofUnits false units

instance (units : Nat) (d : Decimal) : Decidable (d.ReadsBack units) :=
  inferInstanceAs (Decidable (_ = _))

/-- Ten raised to an integer power, as a quotient. -/
def tenTo (exponent : Int) : Nat × Nat :=
  (Nat.pow 10 exponent.toNat, Nat.pow 10 (-exponent).toNat)

/-- The exponent `k` for which a positive value is at least `10 ^ (k - 1)` and below `10 ^ k`. -/
def magnitude (units : Nat) : Int :=
  ((Text.natDigits (units * Nat.pow 10 400 / unitsPerOne)).length : Int) - 400

/-- Of the two multiples of `10 ^ exponent` next to the value, the nearer one that is read as the
value; of two equally near ones the even one. -/
def onGrid (units : Nat) (exponent : Int) : Option Decimal :=
  let num := units * (tenTo exponent).2
  let den := unitsPerOne * (tenTo exponent).1
  let below := num / den
  let inOrder := if roundDiv num den = below then [below, below + 1] else [below + 1, below]
  (inOrder.map fun digits => ⟨digits, exponent⟩).find? fun d => d.ReadsBack units

/-- All the digits of the value. -/
def exact (units : Nat) : Decimal := ⟨units * Nat.pow 5 1074, -1074⟩

/-- The nearest of the shortest decimals that are read as the value. Seventeen digits are always
enough; where they are not, all digits would be written. -/
def shortest (units : Nat) : Decimal :=
  ((List.range 17).findSome? fun n : Nat =>
    onGrid units (magnitude units - (n + 1))).getD (exact units)

/-- The same value, its last digit not zero. -/
def trim (d : Decimal) : Decimal :=
  if h : d.digits = 0 ∨ d.digits % 10 ≠ 0 then d
  else trim ⟨d.digits / 10, d.exponent + 1⟩
termination_by d.digits
decreasing_by simp only [not_or] at h; exact Nat.div_lt_self (Nat.pos_of_ne_zero h.1) (by decide)

theorem readsBack_of_onGrid {units : Nat} {exponent : Int} {d : Decimal}
    (h : onGrid units exponent = some d) : d.ReadsBack units := by
  simpa using List.find?_some h

end Decimal

end PropertyGraph
