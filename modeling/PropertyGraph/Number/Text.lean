import PropertyGraph.Number.Shortest

/-!
The text of a binary64 number: its shortest decimal, positional where the leading digit stands
between `10 ^ (-4)` and `10 ^ 15`, and with an exponent elsewhere.
-/

namespace PropertyGraph

/-- How numbers are written. -/
structure NumberFormat where
  /-- The smallest exponent of a leading digit that is written positionally. -/
  lowest : Int
  /-- The largest exponent of a leading digit that is written positionally. -/
  highest : Int
  /-- What ends a positional text without fraction. -/
  wholeEnding : List Char
  /-- The fewest digits of an exponent. -/
  exponentWidth : Nat
  nan : List Char
  infinity : List Char

/-- Numbers in messages and in texts: `0.1`, `1.0`, `1e+16`, `1e-05`, `inf`. -/
def plainFormat : NumberFormat where
  lowest := -4
  highest := 15
  wholeEnding := ['.', '0']
  exponentWidth := 2
  nan := "nan".toList
  infinity := "inf".toList

/-- Numbers in JSON text, where the special ones have long names. -/
def jsonFormat : NumberFormat :=
  { plainFormat with nan := "NaN".toList, infinity := "Infinity".toList }

namespace NumberFormat

/-- Digits with the point after the first `places` of them; zeros fill the gap. -/
def positional (format : NumberFormat) (digits : List Char) (places : Int) : List Char :=
  if places ≤ 0 then '0' :: '.' :: List.replicate (-places).toNat '0' ++ digits
  else if digits.length ≤ places.toNat then
    digits ++ List.replicate (places.toNat - digits.length) '0' ++ format.wholeEnding
  else digits.take places.toNat ++ '.' :: digits.drop places.toNat

/-- Digits with the point after the first of them, times a power of ten. -/
def scientific (format : NumberFormat) (digits : List Char) (exponent : Int) : List Char :=
  digits.take 1 ++ (if digits.length ≤ 1 then [] else '.' :: digits.drop 1) ++
    ['e', if exponent < 0 then '-' else '+'] ++
    Text.paddedDigits format.exponentWidth exponent.natAbs

/-- The text of a decimal other than zero. -/
def decimal (format : NumberFormat) (d : Decimal) : List Char :=
  let digits := Text.natDigits d.trim.digits
  let leading := (digits.length : Int) + d.trim.exponent - 1
  if format.lowest ≤ leading ∧ leading ≤ format.highest then
    format.positional digits (leading + 1)
  else format.scientific digits leading

def sign (negative : Bool) : List Char := if negative then ['-'] else []

def write (format : NumberFormat) : Double → List Char
  | .finite negative units _ =>
    sign negative ++
      if units = 0 then '0' :: format.wholeEnding else format.decimal (Decimal.shortest units)
  | .infinite negative => sign negative ++ format.infinity
  | .nan => format.nan

end NumberFormat

/-- The text of a number in messages. -/
def Double.text (x : Double) : List Char := plainFormat.write x

end PropertyGraph
