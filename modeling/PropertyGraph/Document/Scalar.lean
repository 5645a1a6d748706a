import PropertyGraph.Calendar.Fault
import PropertyGraph.Number.Numeral

/-!
What plain scalars mean: null, truth values, integers in several bases, binary64 numbers, dates and
times; whatever looks like none of these is a text. Underscores within numbers are dropped, and
colons separate digits of base sixty.
-/

namespace PropertyGraph.Document

/-- Why a scalar that looks like a number or a date is none. -/
inductive ScalarFault where
  | oversizedInteger (e : OversizedInteger)
  | noDigits (base : Nat)
  | calendar (fault : CalendarFault)
  deriving DecidableEq

def ScalarFault.message : ScalarFault → String
  | oversizedInteger e => e.message
  | noDigits base =>
    "invalid literal for int() with base " ++ String.ofList (Text.natDigits base) ++ ": ''"
  | calendar fault => fault.message

namespace Scalar

def isAsciiDigit (c : Char) : Bool := (Text.asciiDigitValue? c).isSome

def isDigitOrUnderscore (c : Char) : Bool := isAsciiDigit c || c == '_'

/-- The words for null and for the truth values, each in small letters, with a capital, and in
capitals. -/
def wordValue? (text : List Char) : Option Value :=
  let word := String.ofList text
  if ["", "~", "null", "Null", "NULL"].contains word then some .null
  else if ["yes", "Yes", "YES", "true", "True", "TRUE", "on", "On", "ON"].contains word then
    some (.bool true)
  else if ["no", "No", "NO", "false", "False", "FALSE", "off", "Off", "OFF"].contains word then
    some (.bool false)
  else none

/-! ### Numbers -/

/-- The value of a digit of base sixteen. -/
def hexValue (c : Char) : Nat :=
  if isAsciiDigit c then c.toNat - '0'.toNat else c.toLower.toNat - 'a'.toNat + 10

/-- The number that digits write in a base other than ten; underscores are dropped. -/
def inBase (base : Nat) (digits : List Char) : Except ScalarFault Nat :=
  match digits.filter (· != '_') with
  | [] => .error (.noDigits base)
  | digits => .ok (digits.foldl (fun value c => base * value + hexValue c) 0)

def decimal (digits : List Char) : Except ScalarFault Nat :=
  (Numeral.natural (digits.filter (· != '_'))).mapError .oversizedInteger

/-- A part after the first of a number in base sixty: a number below sixty of one or two digits. -/
def isSexagesimalPart : List Char → Bool
  | [a] => isAsciiDigit a
  | [a, b] => '0' ≤ a && a ≤ '5' && isAsciiDigit b
  | _ => false

/-- The text of a number that begins with another digit than zero. -/
def isPlainNumber : List Char → Bool
  | c :: rest => isAsciiDigit c && c != '0' && rest.all isDigitOrUnderscore
  | [] => false

/-- The number that an unsigned text writes, if it looks like an integer. -/
def natural? (text : List Char) : Option (Except ScalarFault Nat) :=
  match text with
  | ['0'] => some (.ok 0)
  | '0' :: 'b' :: c :: rest =>
    if (c :: rest).all (['0', '1', '_'].contains ·) then some (inBase 2 (c :: rest)) else none
  | '0' :: 'x' :: c :: rest =>
    if (c :: rest).all fun c => isDigitOrUnderscore c || "abcdefABCDEF".contains c then
      some (inBase 16 (c :: rest))
    else none
  | '0' :: rest =>
    if rest.all fun c => c == '_' || ('0' ≤ c && c ≤ '7') then some (inBase 8 text) else none
  | _ =>
    match Text.pieces (· == ':') text with
    | [digits] => if isPlainNumber digits then some (decimal digits) else none
    | first :: more =>
      if isPlainNumber first && more.all isSexagesimalPart then
        some (more.foldl (fun value part => do return 60 * (← value) + (← decimal part))
          (decimal first))
      else none
    | [] => none

/-- The integer that a text writes, if it looks like one. -/
def integer? (text : List Char) : Option (Except ScalarFault Int) :=
  let (negative, body) := Numeral.sign text
  (natural? body).map fun n => n.map fun n => if negative then -(n : Int) else n

/-- An exponent must have a sign. -/
def isExponent : List Char → Bool
  | [] => true
  | e :: mark :: digits =>
    (e == 'e' || e == 'E') && (mark == '+' || mark == '-') && !digits.isEmpty &&
      digits.all isAsciiDigit
  | _ => false

/-- The text of an unsigned decimal with a point. Before it stands a digit, or else after it. -/
def isPointed (signed : Bool) (text : List Char) : Bool :=
  let (whole, rest) := text.span isDigitOrUnderscore
  match rest with
  | '.' :: more =>
    let (fraction, exponent) := more.span isDigitOrUnderscore
    isExponent exponent &&
      (if whole.isEmpty then !signed && fraction.head?.any isAsciiDigit
       else whole.head?.any isAsciiDigit)
  | _ => false

/-- The number that a text writes in base sixty, its last part with a point. -/
def sexagesimal? (text : List Char) : Option Double :=
  match Text.pieces (· == ':') text with
  | first :: next :: more =>
    let parts := next :: more
    let final := parts.getLast?.getD []
    let (whole, rest) := final.span isAsciiDigit
    let isFinal := isSexagesimalPart whole && rest.head? == some '.' &&
      rest.tail.all isDigitOrUnderscore
    if first.head?.any isAsciiDigit && first.all isDigitOrUnderscore &&
        parts.dropLast.all isSexagesimalPart && isFinal then
      let number (part : List Char) := (Numeral.double (part.filter (· != '_'))).getD .zero
      some ((first :: parts).reverse.foldl
        (fun (sum, base) part => (sum + number part * .ofInt base, base * 60))
        (Double.zero, 1)).1
    else none
  | _ => none

/-- The binary64 number that a text writes, if it looks like one. -/
def double? (text : List Char) : Option Double :=
  let (negative, body) := Numeral.sign text
  let signed := body.length < text.length
  let withSign (x : Double) : Double := if negative then x.neg else x
  let word := String.ofList body
  if [".inf", ".Inf", ".INF"].contains word then some (withSign (.infinite false))
  else if !signed && [".nan", ".NaN", ".NAN"].contains word then some .nan
  else if isPointed signed body then
    (Numeral.double (body.filter (· != '_'))).map withSign
  else (sexagesimal? body).map withSign

/-! ### Dates and times -/

/-- A number of one or two digits, and the text after it. -/
def shortNumber : List Char → Option (Nat × List Char)
  | a :: rest => do
    let high ← Text.asciiDigitValue? a
    match rest with
    | b :: after =>
      match Text.asciiDigitValue? b with
      | some low => return (10 * high + low, after)
      | none => return (high, rest)
    | [] => return (high, [])
  | [] => none

/-- A number of two digits, and the text after it. -/
def twoDigits (text : List Char) : Option (Nat × List Char) := Iso.fixedNumber 2 0 text

/-- The text after a character that must stand here. -/
def after (c : Char) : List Char → Option (List Char)
  | d :: rest => if d = c then some rest else none
  | [] => none

def skipBlanks (text : List Char) : List Char := text.dropWhile fun c => c == ' ' || c == '\t'

/-- The microseconds that digits after a point write; six digits count. -/
def microseconds (digits : List Char) : Nat :=
  let kept := digits.take 6
  Text.digitsValue kept * Nat.pow 10 (6 - kept.length)

/-- The microseconds of the offset that ends a time, if there is one. -/
def offset? (text : List Char) : Option (Option Int) :=
  match skipBlanks text with
  | [] => if text.isEmpty then some none else none
  | ['Z'] => some (some 0)
  | mark :: rest => do
    let negative ← if mark = '-' then some true else if mark = '+' then some false else none
    let (hours, rest) ← shortNumber rest
    let (minutes, rest) ← if rest.isEmpty then some (0, []) else do twoDigits (← after ':' rest)
    if rest.isEmpty then
      let micros : Int := (hours * 60 + minutes) * 60 * Calendar.microsPerSecond
      return some (if negative then -micros else micros)
    else none

/-- The date that a text writes, if it looks like one. -/
def date? (text : List Char) : Option (Except ScalarFault Date) := do
  let (year, text) ← Iso.fixedNumber 4 0 text
  let (month, text) ← twoDigits (← after '-' text)
  let (day, text) ← twoDigits (← after '-' text)
  if text.isEmpty then some ((Date.ofFields year month day).mapError .calendar) else none

/-- The time that a text writes, if it looks like one. -/
def dateTime? (text : List Char) : Option (Except ScalarFault DateTime) := do
  let (year, text) ← Iso.fixedNumber 4 0 text
  let (month, text) ← shortNumber (← after '-' text)
  let (day, text) ← shortNumber (← after '-' text)
  let text ←
    match text with
    | 'T' :: rest | 't' :: rest => some rest
    | _ => if (skipBlanks text).length < text.length then some (skipBlanks text) else none
  let (hour, text) ← shortNumber text
  let (minute, text) ← twoDigits (← after ':' text)
  let (second, text) ← twoDigits (← after ':' text)
  let (fraction, text) :=
    match text with
    | '.' :: rest => rest.span isAsciiDigit
    | _ => ([], text)
  let micros? ← offset? text
  return Except.mapError ScalarFault.calendar do
    let zone? ← micros?.mapM UtcOffset.ofMicros
    DateTime.ofFields (← Date.ofFields year month day) hour minute second
      (microseconds fraction) zone?

/-- The value of a plain scalar. -/
def value (text : List Char) : Except ScalarFault Value :=
  match wordValue? text with
  | some v => .ok v
  | none =>
    match integer? text with
    | some n => n.map .int
    | none =>
      match double? text with
      | some x => .ok (.float x)
      | none =>
        match date? text with
        | some d => d.map .date
        | none =>
          match dateTime? text with
          | some t => t.map .dateTime
          | none => .ok (.str (String.ofList text))

end Scalar

end PropertyGraph.Document
