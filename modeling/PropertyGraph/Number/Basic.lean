import PropertyGraph.Number.Text

/-!
Numbers of the store: integers of any size and binary64 numbers. They are ordered by their exact
values; arithmetic stays exact among integers and is carried out in binary64 once one side is.
-/

namespace PropertyGraph

inductive Number where
  | int (n : Int)
  | float (x : Double)
  deriving DecidableEq

/-- Why an operation on numbers has no result. -/
inductive ArithmeticError where
  | integerTooLarge
  | quotientTooLarge
  | infinityToInteger
  | nanToInteger
  deriving DecidableEq

def ArithmeticError.message : ArithmeticError → String
  | integerTooLarge => "int too large to convert to float"
  | quotientTooLarge => "integer division result too large for a float"
  | infinityToInteger => "cannot convert float infinity to integer"
  | nanToInteger => "cannot convert float NaN to integer"

namespace Number

/-- The place on the line of units; none for NaN. -/
def place? : Number → Option Extended
  | int n => some (.point (n * unitsPerOne))
  | float x => x.place?

/-- Order by exact value; none if one side is NaN. -/
def compare? : Number → Number → Option Ordering
  | int m, int n => some (compare m n)
  | a, b => do
    let x ← a.place?
    let y ← b.place?
    return x.compare y

/-- The order of two numbers is that of their places on the line. -/
theorem compare?_eq_places (a b : Number) :
    a.compare? b = a.place?.bind fun x => b.place?.map x.compare := by
  have scaled (m n : Int) : compare (m * unitsPerOne) (n * unitsPerOne) = compare m n := by
    have positive : (0 : Int) < unitsPerOne := by decide +kernel
    rcases Int.lt_trichotomy m n with h | rfl | h
    · rw [Int.compare_eq_lt.2 h, Int.compare_eq_lt.2 (Int.mul_lt_mul_of_pos_right h positive)]
    · simp only [Std.ReflCmp.compare_self]
    · rw [Int.compare_eq_gt.2 h, Int.compare_eq_gt.2 (Int.mul_lt_mul_of_pos_right h positive)]
  have mixed (x y : Option Extended) :
      (do let p ← x; let q ← y; return p.compare q) = x.bind fun p => y.map p.compare := by
    cases x <;> cases y <;> rfl
  match a, b with
  | int m, int n => exact congrArg some (scaled m n).symm
  | int m, float y => exact mixed _ _
  | float x, int n => exact mixed _ _
  | float x, float y => exact mixed _ _

/-- The nearest binary64 number, if it is finite. -/
def toDouble : Number → Except ArithmeticError Double
  | int n => if (Double.ofInt n).isFinite then .ok (.ofInt n) else .error .integerTooLarge
  | float x => .ok x

def add : Number → Number → Except ArithmeticError Number
  | int m, int n => .ok (int (m + n))
  | a, b => do return float ((← a.toDouble) + (← b.toDouble))

def mul : Number → Number → Except ArithmeticError Number
  | int m, int n => .ok (int (m * n))
  | a, b => do return float ((← a.toDouble) * (← b.toDouble))

/-- The nearest binary64 number, infinite if the number is too large. -/
def nearest : Number → Double
  | int n => .ofInt n
  | float x => x

def sub : Number → Number → Number
  | int m, int n => int (m - n)
  | a, b => float (a.nearest - b.nearest)

instance : Sub Number := ⟨sub⟩

/-- The quotient by a positive count, rounded once. -/
def divCount (a : Number) (count : Nat) : Except ArithmeticError Double :=
  match a with
  | int n =>
    let quotient := Double.ofRatio (n < 0) (n.natAbs * unitsPerOne) count
    if quotient.isFinite then .ok quotient else .error .quotientTooLarge
  | float x => .ok (x / .ofInt count)

/-- The whole number next to the value toward zero. -/
def truncate : Number → Except ArithmeticError Int
  | int n => .ok n
  | float .nan => .error .nanToInteger
  | float (.infinite _) => .error .infinityToInteger
  | float x => .ok x.truncate

def text : Number → List Char
  | int n => Text.intDigits n
  | float x => x.text

instance : LT Number := ⟨fun a b => a.compare? b = some .lt⟩

instance (a b : Number) : Decidable (a < b) :=
  inferInstanceAs (Decidable (_ = _))

instance : LE Number := ⟨fun a b => a.compare? b = some .lt ∨ a.compare? b = some .eq⟩

instance (a b : Number) : Decidable (a ≤ b) :=
  inferInstanceAs (Decidable (_ ∨ _))

end Number

end PropertyGraph
