import PropertyGraph.Number.Rounding

/-!
The binary64 numbers of IEEE 754. A finite one is a sign and a magnitude, counted in units of
`2 ^ (-1074)`, the smallest positive one; so order and equality are those of integers, and each
operation is an exact one followed by one rounding. The payload of a NaN is not kept.
-/

namespace PropertyGraph

/-- Units in one. -/
def unitsPerOne : Nat := Nat.pow 2 1074

/-- A magnitude of at most 53 significant binary digits that is not too large. -/
def Representable (units : Nat) : Prop :=
  units < Nat.pow 2 2098 ∧ units % spacing units = 0

instance (units : Nat) : Decidable (Representable units) :=
  inferInstanceAs (Decidable (_ ∧ _))

inductive Double where
  | finite (negative : Bool) (units : Nat) (representable : Representable units)
  | infinite (negative : Bool)
  | nan
  deriving DecidableEq

/-- An integer, or minus or plus infinity. -/
inductive Extended where
  | bottom
  | point (n : Int)
  | top
  deriving DecidableEq

namespace Extended

def compare : Extended → Extended → Ordering
  | bottom, bottom => .eq
  | bottom, _ => .lt
  | _, bottom => .gt
  | top, top => .eq
  | top, _ => .gt
  | _, top => .lt
  | point m, point n => Ord.compare m n

theorem compare_eq_eq_iff {a b : Extended} : compare a b = .eq ↔ a = b := by
  cases a <;> cases b <;> simp [compare]

end Extended

namespace Double

/-- The integer with the given sign and magnitude. -/
def signed (negative : Bool) (n : Nat) : Int :=
  if negative then -(n : Int) else n

/-- The magnitude, with infinity where it is out of range. -/
def ofUnits (negative : Bool) (units : Nat) : Double :=
  if h : Representable units then finite negative units h else infinite negative

/-- The number nearest to `num / den` units. -/
def ofRatio (negative : Bool) (num den : Nat) : Double :=
  ofUnits negative (roundSignificant num den)

def zero : Double := ofUnits false 0

/-- The number nearest to an integer. -/
def ofInt (n : Int) : Double :=
  ofRatio (n < 0) (n.natAbs * unitsPerOne) 1

/-- The number nearest to `digits * 10 ^ exponent`. Exponents so large or small that the result
is infinite or zero whatever the digits are not carried out. -/
def ofDecimal (negative : Bool) (digits : Nat) (exponent : Int) : Double :=
  if digits = 0 then ofUnits negative 0
  else if 400 < exponent then infinite negative
  else if exponent + (digits.log2 : Int) < -1200 then ofUnits negative 0
  else if 0 ≤ exponent then ofRatio negative (digits * Nat.pow 10 exponent.toNat * unitsPerOne) 1
  else ofRatio negative (digits * unitsPerOne) (Nat.pow 10 (-exponent).toNat)

def isNaN : Double → Bool
  | nan => true
  | _ => false

def isFinite : Double → Bool
  | finite .. => true
  | _ => false

/-- The place on the line of units; none for NaN. -/
def place? : Double → Option Extended
  | finite negative units _ => some (.point (signed negative units))
  | infinite true => some .bottom
  | infinite false => some .top
  | nan => none

/-- Order of the two numbers; none if one is NaN. The two zeros are equal. -/
def compare? (x y : Double) : Option Ordering := do
  let a ← x.place?
  let b ← y.place?
  return a.compare b

def isZero (x : Double) : Bool :=
  x.place? == some (.point 0)

/-- The value is a whole number. -/
def isWhole : Double → Bool
  | finite _ units _ => units % unitsPerOne == 0
  | _ => false

/-- The whole number next to a finite value toward zero. -/
def truncate : Double → Int
  | finite negative units _ => signed negative (units / unitsPerOne)
  | _ => 0

def neg : Double → Double
  | finite negative units h => finite (!negative) units h
  | infinite negative => infinite (!negative)
  | nan => nan

def add : Double → Double → Double
  | finite s a _, finite t b _ =>
    let sum := signed s a + signed t b
    if sum = 0 then ofUnits (s && t) 0 else ofRatio (sum < 0) sum.natAbs 1
  | infinite s, infinite t => if s = t then infinite s else nan
  | infinite s, finite .. => infinite s
  | finite .., infinite t => infinite t
  | nan, _ => nan
  | _, nan => nan

def sub (x y : Double) : Double := add x y.neg

def mul : Double → Double → Double
  | finite s a _, finite t b _ => ofRatio (s != t) (a * b) unitsPerOne
  | infinite s, infinite t => infinite (s != t)
  | infinite s, finite t b _ => if b = 0 then nan else infinite (s != t)
  | finite s a _, infinite t => if a = 0 then nan else infinite (s != t)
  | nan, _ => nan
  | _, nan => nan

def div : Double → Double → Double
  | finite s a _, finite t b _ =>
    if b = 0 then (if a = 0 then nan else infinite (s != t))
    else ofRatio (s != t) (a * unitsPerOne) b
  | infinite _, infinite _ => nan
  | infinite s, finite t _ _ => infinite (s != t)
  | finite s _ _, infinite t => ofUnits (s != t) 0
  | nan, _ => nan
  | _, nan => nan

/-- The square root. Where it is irrational, one half unit past its whole part stands for it: the
root has over five hundred binary digits before that half, so both round alike. -/
def sqrt : Double → Double
  | finite negative units h =>
    if units = 0 then finite negative units h
    else if negative then nan
    else
      let square := units * unitsPerOne
      let root := floorSqrt square
      ofRatio false (2 * root + if root * root = square then 0 else 1) 2
  | infinite true => nan
  | infinite false => infinite false
  | nan => nan

instance : Add Double := ⟨add⟩
instance : Sub Double := ⟨sub⟩
instance : Mul Double := ⟨mul⟩
instance : Div Double := ⟨div⟩
instance : Neg Double := ⟨neg⟩

/-- The order that comparison of numbers decides; false where one side is NaN. -/
instance : LT Double := ⟨fun x y => x.compare? y = some .lt⟩

instance (x y : Double) : Decidable (x < y) :=
  inferInstanceAs (Decidable (_ = _))

end Double

end PropertyGraph
