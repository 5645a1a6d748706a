import PropertyGraph.Number.Basic
import PropertyGraph.Text.Blank
import PropertyGraph.Text.Quoted

/-!
Numbers read from texts. Digits of any script count, blanks around the number are skipped, and an
underscore may stand between two digits. An integer has at most `digitLimit` digits.
-/

namespace PropertyGraph

/-- An integer with more digits than are read. -/
structure OversizedInteger where
  digits : Nat
  deriving DecidableEq

/-- The largest number of digits of an integer, leading zeros counted. -/
def digitLimit : Nat := 4300

/-- The integer has few enough digits to be written. -/
def withinDigits (n : Int) : Bool := (Text.natDigits n.natAbs).length ≤ digitLimit

def OversizedInteger.message (e : OversizedInteger) : String :=
  s!"Exceeds the limit ({digitLimit} digits) for integer string conversion: " ++
    s!"value has {e.digits} digits; use sys.set_int_max_str_digits() to increase the limit"

/-- Why a text is no integer. -/
inductive IntegerError where
  | oversized (e : OversizedInteger)
  | malformed (text : List Char)
  deriving DecidableEq

/-- The longest quotation of a malformed integer. -/
def quotationLimit : Nat := 200

def IntegerError.message : IntegerError → String
  | oversized e => e.message
  | malformed text =>
    "invalid literal for int() with base 10: " ++
      String.ofList ((Text.quoted text).take quotationLimit)

namespace Numeral

open Text

/-- Blanks around a number; the information separators are none. -/
def isSpacing (c : Char) : Bool :=
  isBlank c && !(0x1C ≤ c.toNat && c.toNat ≤ 0x1F)

def trim (text : List Char) : List Char :=
  ((text.dropWhile isSpacing).reverse.dropWhile isSpacing).reverse

/-- A leading sign, true for minus, and the text after it. -/
def sign : List Char → Bool × List Char
  | '-' :: rest => (true, rest)
  | '+' :: rest => (false, rest)
  | text => (false, text)

/-- Every underscore stands between two digits. -/
def groupedAfter (previous : Char) : List Char → Bool
  | [] => previous != '_'
  | c :: rest =>
    (if c = '_' then isDigit previous else previous != '_' || isDigit c) && groupedAfter c rest

def grouped (text : List Char) : Bool := groupedAfter ' ' text

/-- The number that digits write, if there are not too many. -/
def natural (digits : List Char) : Except OversizedInteger Nat :=
  if digitLimit < digits.length then .error ⟨digits.length⟩ else .ok (digitsValue digits)

/-- The integer that an optional minus and digits write. -/
def signedInteger (negative : Bool) (digits : List Char) : Except OversizedInteger Int := do
  let n ← natural digits
  return if negative then -(n : Int) else n

/-- An integer: an optional sign and grouped digits. -/
def integer (text : List Char) : Except IntegerError Int :=
  let (negative, body) := sign (trim text)
  let (front, rest) := body.span fun c => isDigit c || c == '_'
  if front.isEmpty || !grouped front then .error (.malformed text)
  else
    match signedInteger negative (front.filter (· != '_')) with
    | .error e => .error (.oversized e)
    | .ok n => if rest.isEmpty then .ok n else .error (.malformed text)

/-- The exponent that ends a number: nothing, or `e` with an optional sign and digits. -/
def exponent : List Char → Option Int
  | [] => some 0
  | mark :: rest =>
    let (negative, digits) := sign rest
    if (mark = 'e' ∨ mark = 'E') ∧ !digits.isEmpty ∧ digits.all isDigit then
      some (if negative then -(digitsValue digits : Int) else digitsValue digits)
    else none

/-- Digits with at most one point among them, then an exponent. -/
def decimal (negative : Bool) (text : List Char) : Option Double :=
  let (whole, afterWhole) := text.span isDigit
  let (fraction, rest) :=
    match afterWhole with
    | '.' :: more => more.span isDigit
    | _ => ([], afterWhole)
  if whole.isEmpty && fraction.isEmpty then none
  else (exponent rest).map fun e =>
    Double.ofDecimal negative (digitsValue (whole ++ fraction)) (e - fraction.length)

/-- A binary64 number: a decimal, an infinity or a NaN, with an optional sign. -/
def double (text : List Char) : Option Double :=
  let body := trim text
  if !grouped body then none
  else
    let (negative, unsigned) := sign (body.filter (· != '_'))
    let name := String.ofList (unsigned.map Char.toLower)
    if name = "inf" ∨ name = "infinity" then some (.infinite negative)
    else if name = "nan" then some .nan
    else decimal negative unsigned

end Numeral

end PropertyGraph
