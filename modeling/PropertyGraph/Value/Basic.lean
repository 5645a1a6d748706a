import PropertyGraph.Calendar.DateTime
import PropertyGraph.Number.Basic

/-!
The values that nodes hold, that queries name and that documents are made of. Properties of stored
nodes are scalars or tuples of them; lists and mappings occur in documents and settings.
-/

namespace PropertyGraph

inductive Value where
  | null
  | bool (b : Bool)
  | int (n : Int)
  | float (x : Double)
  | str (s : String)
  | date (d : Date)
  | dateTime (t : DateTime)
  | bytes (data : List UInt8)
  | tuple (items : List Value)
  | list (items : List Value)
  | dict (entries : List (Value × Value))
  deriving Inhabited

namespace Value

/-- The kinds of values, as messages tell them apart. -/
inductive Kind where
  | null | bool | int | float | str | date | dateTime | bytes | tuple | list | dict
  deriving DecidableEq

def Kind.name : Kind → String
  | null => "NoneType"
  | bool => "bool"
  | int => "int"
  | float => "float"
  | str => "str"
  | date => "datetime.date"
  | dateTime => "datetime.datetime"
  | bytes => "bytes"
  | tuple => "tuple"
  | list => "list"
  | dict => "dict"

def kind : Value → Kind
  | .null => .null
  | .bool _ => .bool
  | .int _ => .int
  | .float _ => .float
  | .str _ => .str
  | .date _ => .date
  | .dateTime _ => .dateTime
  | .bytes _ => .bytes
  | .tuple _ => .tuple
  | .list _ => .list
  | .dict _ => .dict

def ofNumber : Number → Value
  | .int n => .int n
  | .float x => .float x

/-- The number that a value is; a truth value is none. -/
def number? : Value → Option Number
  | .int n => some (.int n)
  | .float x => some (.float x)
  | _ => none

/-- The number that a value compares as: true and false compare as one and zero. -/
def numeric? : Value → Option Number
  | .bool b => some (.int b.toNat)
  | v => v.number?

def isBool : Value → Bool
  | .bool _ => true
  | _ => false

def isNull : Value → Bool
  | .null => true
  | _ => false

/-- The value counts as false where a truth value is expected: null, false, zero or empty. -/
def isFalsy : Value → Bool
  | .null => true
  | .bool b => !b
  | .int n => n == 0
  | .float x => x.isZero
  | .str s => s.isEmpty
  | .bytes data => data.isEmpty
  | .tuple items => items.isEmpty
  | .list items => items.isEmpty
  | .dict entries => entries.isEmpty
  | .date _ => false
  | .dateTime _ => false

/-- The value of a text key in a mapping. -/
def field? (entries : List (Value × Value)) (key : String) : Option Value :=
  (entries.find? fun
    | (.str name, _) => name == key
    | _ => false).map Prod.snd

@[simp] theorem number?_ofNumber (n : Number) : (ofNumber n).number? = some n := by
  cases n <;> rfl

end Value

end PropertyGraph
