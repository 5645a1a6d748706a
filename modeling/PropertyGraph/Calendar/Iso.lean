import PropertyGraph.Calendar.DateTime
import PropertyGraph.Text.Digit

/-!
Dates and times as ISO 8601 writes them. Writing is canonical: `2024-01-31`, and
`2024-01-31T10:00:00`, with a fraction of six digits and an offset only where they are needed.
Reading is more generous with times: the colons may be missing, the last parts too, any one
character may stand between date and time, and one character before an offset is passed over.
-/

namespace PropertyGraph

open Text

namespace Date

/-- The date as `YYYY-MM-DD`. -/
def iso (date : Date) : List Char :=
  paddedDigits 4 date.year ++ '-' :: paddedDigits 2 date.month ++
    '-' :: paddedDigits 2 date.day

end Date

namespace UtcOffset

/-- The offset as `+HH:MM`, with seconds and their fraction only if they are not zero. -/
def iso (offset : UtcOffset) : List Char :=
  let magnitude := offset.micros.natAbs
  let micro := magnitude % Calendar.microsPerSecond
  let seconds := magnitude / Calendar.microsPerSecond
  (if offset.micros < 0 then '-' else '+') :: paddedDigits 2 (seconds / 3600) ++
    ':' :: paddedDigits 2 (seconds / 60 % 60) ++
    (if seconds % 60 = 0 ∧ micro = 0 then [] else ':' :: paddedDigits 2 (seconds % 60)) ++
    (if micro = 0 then [] else '.' :: paddedDigits 6 micro)

end UtcOffset

namespace DateTime

/-- The time of day as `HH:MM:SS`, with a fraction only if it is not zero. -/
def clockText (t : DateTime) : List Char :=
  paddedDigits 2 t.hour ++ ':' :: paddedDigits 2 t.minute ++ ':' :: paddedDigits 2 t.second ++
    (if t.micro = 0 then [] else '.' :: paddedDigits 6 t.micro)

/-- Date and time with `mark` between them, then the offset if there is one. -/
def isoWith (mark : Char) (t : DateTime) : List Char :=
  t.date.iso ++ mark :: t.clockText ++ ((t.offset?.map UtcOffset.iso).getD [])

/-- Date and time as `YYYY-MM-DDTHH:MM:SS`. -/
def iso (t : DateTime) : List Char := t.isoWith 'T'

end DateTime

namespace Iso

/-- A number of exactly `count` ASCII digits, and the text after it. -/
def fixedNumber : Nat → Nat → List Char → Option (Nat × List Char)
  | 0, value, text => some (value, text)
  | _ + 1, _, [] => none
  | count + 1, value, c :: rest =>
    (asciiDigitValue? c).bind fun digit => fixedNumber count (10 * value + digit) rest

/-- The text begins with four digits, a hyphen, two digits, a hyphen and two digits, of any
script. -/
def looksLikeDate : List Char → Bool
  | a :: b :: c :: d :: h :: e :: f :: i :: g :: j :: _ =>
    [a, b, c, d, e, f, g, j].all isDigit && h == '-' && i == '-'
  | _ => false

/-- A date of ten characters at the start of the text, and the text after it. -/
def date (text : List Char) : Option (Date × List Char) := do
  let (year, text) ← fixedNumber 4 0 text
  let '-' :: text := text | none
  let (month, text) ← fixedNumber 2 0 text
  let '-' :: text := text | none
  let (day, text) ← fixedNumber 2 0 text
  return (← Date.ofFields? year month day, text)

/-- A time of day as read, its parts not yet checked. -/
structure Clock where
  hour : Nat
  minute : Nat
  second : Nat
  micro : Nat

/-- Nothing follows. A null character ends a time as the end of the text does. -/
def atEnd (text : List Char) : Bool :=
  text.headD '\x00' == '\x00'

/-- A fraction of a second: up to six digits count, further ones are skipped. It is whole if
nothing follows it. -/
def fraction (text after : List Char) : Option (Nat × Bool) := do
  let count := min text.length 6
  let (value, _) ← fixedNumber count 0 text
  let rest := (text.drop count ++ after).dropWhile fun c => (asciiDigitValue? c).isSome
  return (value * Nat.pow 10 (6 - count), atEnd rest)

/-- The bytes of the text in UTF-8. -/
def byteCount (text : List Char) : Nat := text.foldr (fun c bytes => c.utf8Size + bytes) 0

/-- The parts of a time that are not read yet: how many, and whether colons separate them (open
until the first part is read). A single byte is too little for a further part. -/
def clockParts (after : List Char) :
    Nat → Option Bool → List Nat → List Char → Option (List Nat × Nat × Bool)
  | 0, _, parts, text => (fraction text after).map fun (micro, whole) => (parts, micro, whole)
  | left + 1, colons?, parts, text => do
    let (part, rest) ← fixedNumber 2 0 text
    let parts := parts ++ [part]
    let next := (rest ++ after).headD '\x00'
    let colons := colons?.getD (next == ':')
    if byteCount rest ≤ 1 then return (parts, 0, next == '\x00')
    else if colons && next == ':' then clockParts after left colons parts (rest.drop 1)
    else if next = '.' ∨ next = ',' then
      let (micro, whole) ← fraction (rest.drop 1) after
      return (parts, micro, whole)
    else if !colons then clockParts after left colons parts rest
    else none

/-- A time of day that `after` follows in the text, and whether nothing but it was found. -/
def clock (text after : List Char) : Option (Clock × Bool) := do
  let (parts, micro, whole) ← clockParts after 3 none [] text
  return (⟨parts[0]?.getD 0, parts[1]?.getD 0, parts[2]?.getD 0, micro⟩, whole)

/-- An offset from universal time. One of less than a second counts as none. -/
def offset : List Char → Option UtcOffset
  | 'Z' :: rest => if atEnd rest then some .utc else none
  | mark :: rest => do
    let (c, whole) ← clock rest []
    let seconds := (c.hour * 60 + c.minute) * 60 + c.second
    let magnitude : Nat := if seconds = 0 then 0 else seconds * Calendar.microsPerSecond + c.micro
    if whole then UtcOffset.ofMicros? (if mark = '-' then -(magnitude : Int) else magnitude)
    else none
  | [] => none

/-- A time of day with an optional offset. -/
def timeOn (date : Date) (text : List Char) : Option DateTime := do
  let (front, rest) := text.span fun c => !(c == '+' || c == '-' || c == 'Z')
  let (c, whole) ← clock front rest
  if rest.isEmpty then
    if whole then DateTime.ofFields? date c.hour c.minute c.second c.micro none else none
  else
    DateTime.ofFields? date c.hour c.minute c.second c.micro (some (← offset rest))

/-- A date, any one character and a time. -/
def dateTime (text : List Char) : Option DateTime := do
  let (date, _ :: time) ← Iso.date text | none
  timeOn date time

end Iso

end PropertyGraph
