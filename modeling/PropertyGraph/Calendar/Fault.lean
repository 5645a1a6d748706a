import PropertyGraph.Value.Text

/-!
What is wrong with the fields of a date or a time that there is not. The first wrong field counts,
from the year on.
-/

namespace PropertyGraph

inductive CalendarFault where
  | year (year : Nat)
  | month
  | day
  | hour
  | minute
  | second
  | offset (micros : Int)
  deriving DecidableEq

namespace CalendarFault

def message : CalendarFault → String
  | year n => "year " ++ String.ofList (Text.natDigits n) ++ " is out of range"
  | month => "month must be in 1..12"
  | day => "day is out of range for month"
  | hour => "hour must be in 0..23"
  | minute => "minute must be in 0..59"
  | second => "second must be in 0..59"
  | offset micros =>
    "offset must be a timedelta strictly between -timedelta(hours=24) and timedelta(hours=24), not "
      ++ String.ofList (Calendar.shownDuration micros) ++ "."

end CalendarFault

/-- The date of these fields. -/
def Date.ofFields (y m d : Nat) : Except CalendarFault Date :=
  match Date.ofFields? y m d with
  | some date => .ok date
  | none =>
    if y < 1 ∨ 9999 < y then .error (.year y)
    else if m < 1 ∨ 12 < m then .error .month
    else .error .day

/-- The offset of so many microseconds. -/
def UtcOffset.ofMicros (micros : Int) : Except CalendarFault UtcOffset :=
  match UtcOffset.ofMicros? micros with
  | some offset => .ok offset
  | none => .error (.offset micros)

/-- The time of these fields. -/
def DateTime.ofFields (date : Date) (h m s micro : Nat) (offset? : Option UtcOffset) :
    Except CalendarFault DateTime :=
  match DateTime.ofFields? date h m s micro offset? with
  | some t => .ok t
  | none =>
    if 24 ≤ h then .error .hour
    else if 60 ≤ m then .error .minute
    else .error .second

end PropertyGraph
