import PropertyGraph.Calendar.Iso
import PropertyGraph.Json
import PropertyGraph.Number.Numeral
import PropertyGraph.RunSort.Basic
import PropertyGraph.Value.Order

/-!
Values as JSON trees. A style says how dates are written and whether the members of mappings are
sorted by their keys; bytes have no JSON form, nor have integers of too many digits and mappings with
keys that are tuples or dates.
-/

namespace PropertyGraph

/-- Why a value has no JSON form. -/
inductive JsonError where
  | value (kind : Value.Kind)
  | key (kind : Value.Kind)
  | keyOrder (mismatch : Value.Mismatch)
  | oversizedInteger
  deriving DecidableEq

def JsonError.message : JsonError → String
  | value kind => s!"Cannot serialize {kind.name} in query"
  | key kind => s!"keys must be str, int, float, bool or None, not {kind.name}"
  | keyOrder mismatch => mismatch.message "<"
  | oversizedInteger =>
    s!"Exceeds the limit ({digitLimit} digits) for integer string conversion; " ++
      "use sys.set_int_max_str_digits() to increase the limit"

/-- An integer that is written. -/
def writtenInt (n : Int) : Except JsonError Int :=
  if withinDigits n then .ok n else .error .oversizedInteger

structure JsonStyle where
  date : String → Json
  sortMembers : Bool

namespace JsonStyle

/-- Dates as texts and members in their own order. -/
def plain : JsonStyle := ⟨.str, false⟩

/-- Dates marked as such and members sorted, so that equal values have equal trees. -/
def canonical : JsonStyle := ⟨fun iso => .object [("$date", .str iso)], true⟩

end JsonStyle

namespace Value

/-- The text of a key in a mapping. -/
def memberName : Value → Except JsonError String
  | .str s => .ok s
  | .int n => do return String.ofList (Text.intDigits (← writtenInt n))
  | .float x => .ok (String.ofList (jsonFormat.write x))
  | .bool b => .ok (if b then "true" else "false")
  | .null => .ok "null"
  | v => .error (.key v.kind)

/-- The entries in the order of their keys, or the first neighbours whose keys have no order. -/
def sortedByKey (entries : List (Value × α)) : Except JsonError (List (Value × α)) :=
  match (entries.zip entries.tail).findSome? fun (a, b) =>
      match b.1.relate a.1 with
      | .error mismatch => some mismatch
      | .ok _ => none with
  | some mismatch => .error (.keyOrder mismatch)
  | none => .ok (RunSort.sort (fun a b => a.1.less b.1) entries)

mutual

def toJson (style : JsonStyle) : Value → Except JsonError Json
  | .null => .ok .null
  | .bool b => .ok (.bool b)
  | .int n => do return .int (← writtenInt n)
  | .float x => .ok (.float x)
  | .str s => .ok (.str s)
  | .date d => .ok (style.date (String.ofList d.iso))
  | .dateTime t => .ok (style.date (String.ofList t.iso))
  | .bytes data => .error (.value (Value.bytes data).kind)
  | .tuple items => do return .array (← toJsonItems style items)
  | .list items => do return .array (← toJsonItems style items)
  | .dict entries => do
    let members := toJsonEntries style entries
    let ordered ← if style.sortMembers then sortedByKey members else pure members
    return .object (← ordered.mapM fun (key, value) => do return (← key.memberName, ← value))

def toJsonItems (style : JsonStyle) : List Value → Except JsonError (List Json)
  | [] => .ok []
  | item :: rest => do return (← toJson style item) :: (← toJsonItems style rest)

/-- The entries with the trees of their values, or what is wrong with each. -/
def toJsonEntries (style : JsonStyle) :
    List (Value × Value) → List (Value × Except JsonError Json)
  | [] => []
  | (key, value) :: rest => (key, toJson style value) :: toJsonEntries style rest

end

end Value

end PropertyGraph
