import PropertyGraph.Value.Order

/-!
Keys under which values are filed. Values that compare equal share a key, so that `1` and `1.0`
are found together; truth values have keys of their own, but count as numbers inside tuples. A
value that holds a list or a mapping has no key.
-/

namespace PropertyGraph

/-- Keys of values without elements. -/
inductive AtomKey where
  | null
  | truth (b : Bool)
  | number (place : Extended)
  | nan
  | text (s : String)
  | day (number : Nat)
  | localTime (micros : Int)
  | instant (micros : Int)
  | bytes (data : List UInt8)
  deriving DecidableEq

inductive ValueKey where
  | atom (key : AtomKey)
  | items (keys : List ValueKey)

namespace ValueKey

mutual

def decEq : (a b : ValueKey) → Decidable (a = b)
  | .atom a, .atom b => decidable_of_iff (a = b) (by simp)
  | .items as, .items bs =>
    match decEqItems as bs with
    | isTrue h => isTrue (congrArg _ h)
    | isFalse h => isFalse fun e => h (ValueKey.items.inj e)
  | .atom _, .items _ => isFalse nofun
  | .items _, .atom _ => isFalse nofun

def decEqItems : (as bs : List ValueKey) → Decidable (as = bs)
  | [], [] => isTrue rfl
  | [], _ :: _ => isFalse nofun
  | _ :: _, [] => isFalse nofun
  | a :: as, b :: bs =>
    match decEq a b, decEqItems as bs with
    | isTrue h, isTrue t => isTrue (h ▸ t ▸ rfl)
    | isFalse h, _ => isFalse fun e => h (List.cons.inj e).1
    | _, isFalse t => isFalse fun e => t (List.cons.inj e).2

end

instance : DecidableEq ValueKey := decEq

mutual

/-- No NaN is part of the value, so that it equals itself. -/
def isReflexive : ValueKey → Bool
  | .atom key => key ≠ .nan
  | .items keys => allReflexive keys

def allReflexive : List ValueKey → Bool
  | [] => true
  | key :: rest => isReflexive key && allReflexive rest

end

end ValueKey

namespace Value

def numberKey (n : Number) : AtomKey :=
  match n.place? with
  | some place => .number place
  | none => .nan

mutual

/-- The key of a value as an element of a tuple, where truth values are numbers. -/
def elementKey? : Value → Option ValueKey
  | .null => some (.atom .null)
  | .bool b => some (.atom (numberKey (.int b.toNat)))
  | .int n => some (.atom (numberKey (.int n)))
  | .float x => some (.atom (numberKey (.float x)))
  | .str s => some (.atom (.text s))
  | .date d => some (.atom (.day d.number))
  | .dateTime t => some (.atom (if t.isAware then .instant t.instant else .localTime t.instant))
  | .bytes data => some (.atom (.bytes data))
  | .tuple items => (elementKeys? items).map .items
  | .list _ => none
  | .dict _ => none

def elementKeys? : List Value → Option (List ValueKey)
  | [] => some []
  | item :: rest => do return (← elementKey? item) :: (← elementKeys? rest)

end

/-- The key under which a value is filed. -/
def key? : Value → Option ValueKey
  | .bool b => some (.atom (.truth b))
  | v => v.elementKey?

/-- The value can be filed: it holds no list and no mapping. -/
def isScalar (v : Value) : Bool := v.key?.isSome

end Value

end PropertyGraph
