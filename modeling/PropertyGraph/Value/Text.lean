import PropertyGraph.Calendar.Iso
import PropertyGraph.Text.Quoted
import PropertyGraph.Text.Split
import PropertyGraph.Value.Basic

/-!
The texts of values. `shown` is the form in messages, where texts are quoted and each value shows
its kind; `plain` is the form in identities and lists, where a text stands for itself.
-/

namespace PropertyGraph

open Text

namespace Calendar

/-- A length of time as days, seconds and microseconds, those that are zero left out. -/
def shownDuration (micros : Int) : List Char :=
  let days := Int.fdiv micros microsPerDay
  let rest := Int.fmod micros microsPerDay
  let seconds := rest / microsPerSecond
  let micro := rest % microsPerSecond
  let part (name : String) (n : Int) : List (List Char) :=
    if n = 0 then [] else [name.toList ++ '=' :: intDigits n]
  let parts := part "days" days ++ part "seconds" seconds ++ part "microseconds" micro
  "datetime.timedelta(".toList ++ (if parts.isEmpty then ['0'] else join ", ".toList parts) ++ [')']

end Calendar

def UtcOffset.shown (offset : UtcOffset) : List Char :=
  if offset.micros = 0 then "datetime.timezone.utc".toList
  else "datetime.timezone(".toList ++ Calendar.shownDuration offset.micros ++ [')']

def Date.shown (d : Date) : List Char :=
  "datetime.date(".toList ++ join ", ".toList ([d.year, d.month, d.day].map natDigits) ++ [')']

/-- The fields of a time, its seconds and microseconds only as far as they are not zero. -/
def DateTime.shown (t : DateTime) : List Char :=
  let small :=
    if t.micro = 0 then (if t.second = 0 then [] else [t.second]) else [t.second, t.micro]
  let fields := [t.date.year, t.date.month, t.date.day, t.hour, t.minute] ++ small
  "datetime.datetime(".toList ++ join ", ".toList (fields.map natDigits) ++
    (t.offset?.map fun offset => ", tzinfo=".toList ++ offset.shown).getD [] ++ [')']

namespace Value

/-- One byte within quoted bytes. -/
def shownByte (mark : Char) (byte : UInt8) : List Char :=
  if byte.toNat < 128 then quotedChar mark (Char.ofNat byte.toNat)
  else '\\' :: 'x' :: hexDigits 2 byte.toNat

def shownBytes (data : List UInt8) : List Char :=
  let mark := enclosingMark (data.map fun byte => Char.ofNat byte.toNat)
  'b' :: mark :: data.flatMap (shownByte mark) ++ [mark]

mutual

/-- The value as messages show it. -/
def shown : Value → List Char
  | .null => "None".toList
  | .bool b => if b then "True".toList else "False".toList
  | .int n => intDigits n
  | .float x => x.text
  | .str s => quoted s.toList
  | .date d => d.shown
  | .dateTime t => t.shown
  | .bytes data => shownBytes data
  | .tuple [item] => '(' :: shown item ++ [',', ')']
  | .tuple items => '(' :: shownItems items ++ [')']
  | .list items => '[' :: shownItems items ++ [']']
  | .dict entries => '\x7b' :: shownEntries entries ++ ['\x7d']

def shownItems : List Value → List Char
  | [] => []
  | [item] => shown item
  | item :: rest => shown item ++ ", ".toList ++ shownItems rest

def shownEntries : List (Value × Value) → List Char
  | [] => []
  | [(key, value)] => shown key ++ ": ".toList ++ shown value
  | (key, value) :: rest =>
    shown key ++ ": ".toList ++ shown value ++ ", ".toList ++ shownEntries rest

end

/-- The value as text: a text is itself, dates and times are in ISO form. -/
def plain : Value → List Char
  | .str s => s.toList
  | .date d => d.iso
  | .dateTime t => t.isoWith ' '
  | v => v.shown

end Value

end PropertyGraph
