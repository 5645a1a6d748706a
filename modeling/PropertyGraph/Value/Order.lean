import PropertyGraph.Value.Basic

/-!
Equality and order of values. Numbers compare by exact value, whatever their kinds, and truth
values among them as one and zero; texts compare by code points, sequences element by element.
Times compare as instants if both have an offset and as local times if neither has. Other pairs of
kinds are unequal, and have no order.

`relate` gives the order of two values, or the pair that has none; `equal` is defined on all pairs.
-/

namespace PropertyGraph

namespace Value

/-- Two lists are compared element by element until one ends. -/
def compareLists (compare : α → α → Ordering) : List α → List α → Ordering
  | [], [] => .eq
  | [], _ :: _ => .lt
  | _ :: _, [] => .gt
  | a :: as, b :: bs => (compare a b).then (compareLists compare as bs)

/-- Equality of times: of instants, or of local times. -/
def equalTimes (t u : DateTime) : Bool :=
  t.isAware == u.isAware && t.instant == u.instant

/-- Equality of numbers and truth values, by exact value. -/
def equalNumbers (a b : Value) : Bool :=
  (a.numeric?.bind fun m => b.numeric?.bind fun n => m.compare? n) == some .eq

/-- Equality of values without elements. -/
def equalScalars : Value → Value → Bool
  | .null, .null => true
  | .str s, .str t => s == t
  | .date d, .date e => d.number == e.number
  | .dateTime t, .dateTime u => equalTimes t u
  | .bytes a, .bytes b => a == b
  | a, b => equalNumbers a b

mutual

def equal : Value → Value → Bool
  | .tuple as, .tuple bs => equalItems as bs
  | .list as, .list bs => equalItems as bs
  | .dict as, .dict bs => as.length == bs.length && equalEntries as bs
  | a, b => equalScalars a b

def equalItems : List Value → List Value → Bool
  | [], [] => true
  | a :: as, b :: bs => equal a b && equalItems as bs
  | _, _ => false

/-- Each key of the first mapping is bound to an equal value in the second. -/
def equalEntries : List (Value × Value) → List (Value × Value) → Bool
  | [], _ => true
  | (key, value) :: rest, others =>
    others.any (fun other => equal key other.1 && equal value other.2) && equalEntries rest others

end

/-- The entries with a key bound to a value, in its old place if an equal key is bound already. -/
def bindKey (key value : Value) : List (Value × Value) → List (Value × Value)
  | [] => [(key, value)]
  | entry :: rest =>
    if equal entry.1 key then (entry.1, value) :: rest else entry :: bindKey key value rest

/-- The mapping of a list of entries, later ones over earlier ones of an equal key. -/
def ofEntries (entries : List (Value × Value)) : Value :=
  .dict (entries.foldl (fun bound entry => bindKey entry.1 entry.2 bound) [])

/-- A pair of values that have no order. -/
inductive Mismatch where
  | kinds (left right : Kind)
  | dateWithTime
  | localWithInstant
  deriving DecidableEq

/-- What is wrong with comparing the pair by `symbol`. -/
def Mismatch.message (symbol : String) : Mismatch → String
  | kinds left right =>
    s!"'{symbol}' not supported between instances of '{left.name}' and '{right.name}'"
  | dateWithTime => "can't compare datetime.datetime to datetime.date"
  | localWithInstant => "can't compare offset-naive and offset-aware datetimes"

/-- The order of two values without elements; `ok none` if one is NaN. -/
def relateScalars : Value → Value → Except Mismatch (Option Ordering)
  | .str s, .str t => .ok (some (compare s t))
  | .date d, .date e => .ok (some (compare d.number e.number))
  | .dateTime t, .dateTime u =>
    if t.isAware == u.isAware then .ok (some (compare t.instant u.instant))
    else .error .localWithInstant
  | .date _, .dateTime _ => .error .dateWithTime
  | .dateTime _, .date _ => .error .dateWithTime
  | .bytes a, .bytes b => .ok (some (compareLists (fun x y => compare x.toNat y.toNat) a b))
  | a, b =>
    match a.numeric?, b.numeric? with
    | some m, some n => .ok (m.compare? n)
    | _, _ => .error (.kinds a.kind b.kind)

mutual

/-- The order of two values; `ok none` if a NaN decides it. -/
def relate : Value → Value → Except Mismatch (Option Ordering)
  | .tuple as, .tuple bs => relateItems as bs
  | .list as, .list bs => relateItems as bs
  | a, b => relateScalars a b

/-- The first pair of unequal elements decides, or the lengths if there is none. -/
def relateItems : List Value → List Value → Except Mismatch (Option Ordering)
  | [], [] => .ok (some .eq)
  | [], _ :: _ => .ok (some .lt)
  | _ :: _, [] => .ok (some .gt)
  | a :: as, b :: bs => if equal a b then relateItems as bs else relate a b

end

/-- The first value is known to be smaller. -/
def less (a b : Value) : Bool :=
  match a.relate b with
  | .ok (some .lt) => true
  | _ => false

/-- The first value is known to be larger. -/
def greater (a b : Value) : Bool :=
  match a.relate b with
  | .ok (some .gt) => true
  | _ => false

/-- Equality that also keeps truth values and numbers apart. -/
def same (a b : Value) : Bool :=
  a.isBool == b.isBool && a.equal b

end Value

end PropertyGraph
