import PropertyGraph.Calendar.Date

/-!
Times of a day on a date, to the microsecond. With an offset from universal time they name an
instant; without one they are local times, and the two kinds are not compared.
-/

namespace PropertyGraph

namespace Calendar

def microsPerSecond : Nat := 1000000

def microsPerDay : Nat := 86400 * microsPerSecond

end Calendar

/-- The distance of a local clock from universal time, in microseconds; less than a day. -/
structure UtcOffset where
  micros : Int
  bounded : micros.natAbs < Calendar.microsPerDay
  deriving DecidableEq

structure DateTime where
  date : Date
  hour : Nat
  minute : Nat
  second : Nat
  micro : Nat
  offset? : Option UtcOffset
  valid : hour < 24 ∧ minute < 60 ∧ second < 60 ∧ micro < Calendar.microsPerSecond
  deriving DecidableEq

namespace UtcOffset

def ofMicros? (micros : Int) : Option UtcOffset :=
  if h : micros.natAbs < Calendar.microsPerDay then some ⟨micros, h⟩ else none

def utc : UtcOffset := ⟨0, by decide⟩

end UtcOffset

namespace DateTime

/-- The time of these fields, if there is one. -/
def ofFields? (date : Date) (hour minute second micro : Nat) (offset? : Option UtcOffset) :
    Option DateTime :=
  if h : hour < 24 ∧ minute < 60 ∧ second < 60 ∧ micro < Calendar.microsPerSecond then
    some ⟨date, hour, minute, second, micro, offset?, h⟩
  else none

/-- Microseconds on the local clock since the day before year 1. -/
def localMicros (t : DateTime) : Int :=
  t.date.number * Calendar.microsPerDay +
    (((t.hour * 60 + t.minute) * 60 + t.second) * Calendar.microsPerSecond + t.micro : Nat)

/-- Microseconds of the instant on a clock of universal time; the local ones without an offset. -/
def instant (t : DateTime) : Int :=
  t.localMicros - (t.offset?.map UtcOffset.micros).getD 0

def isAware (t : DateTime) : Bool := t.offset?.isSome

theorem ofFields?_fields (t : DateTime) :
    ofFields? t.date t.hour t.minute t.second t.micro t.offset? = some t := by
  simp [ofFields?, t.valid]

end DateTime

end PropertyGraph
