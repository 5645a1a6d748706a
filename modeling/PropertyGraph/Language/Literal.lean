import PropertyGraph.Calendar.Iso
import PropertyGraph.Language.Error
import PropertyGraph.Value.Text

/-!
Literals of the query language. `Literal.read` takes a text for a list in brackets, a truth value,
a number, a date or time, or else for a text, from which one quote is taken at either end.
`Literal.write` is the form in which plans show values.
-/

namespace PropertyGraph

open Text

namespace Literal

/-- The text without the comma that it may end with. -/
def dropTrailingComma (text : List Char) : List Char :=
  if text.getLast? = some ',' then text.dropLast else text

/-- What a literal is read from: no blanks around it and no comma at its end. -/
def core (text : List Char) : List Char := dropTrailingComma (strip text)

/-- What stands between brackets that enclose the text. -/
def bracketed? (text : List Char) : Option (List Char) :=
  match text with
  | '[' :: rest => if rest.getLast? = some ']' then some rest.dropLast else none
  | _ => none

/-- The items of a list, in a text that holds them with commas between. Blank items are left out;
a comma within quotes separates too. -/
def items (text : List Char) : List (List Char) :=
  (pieces (· == ',') text).filter fun item => !(strip item).isEmpty

/-- The text without the line feed that it may end with. -/
def dropFinalNewline (text : List Char) : List Char :=
  if text.getLast? = some '\n' then text.dropLast else text

/-- The parts of a number: sign, whole part, and the fraction if there is one. -/
def numberParts? (text : List Char) : Option (Bool × List Char × Option (List Char)) :=
  let (negative, digits) := match text with
    | '-' :: rest => (true, rest)
    | _ => (false, text)
  let (whole, fraction?) := cut '.' digits
  if !whole.isEmpty && whole.all isDigit &&
      fraction?.all fun fraction => !fraction.isEmpty && fraction.all isDigit then
    some (negative, whole, fraction?)
  else none

/-- The value of a number's parts. -/
def numberValue (negative : Bool) (whole : List Char) :
    Option (List Char) → Except Fault Value
  | none => match Numeral.signedInteger negative whole with
    | .ok n => .ok (.int n)
    | .error e => .error (.oversizedInteger e)
  | some fraction =>
    .ok (.float (Double.ofDecimal negative (digitsValue (whole ++ fraction)) (-fraction.length)))

/-- A date, of ten characters, or a time. -/
def readDate (text : List Char) : Except Fault Value :=
  let value? :=
    if text.length = 10 then (Iso.date text).map fun (d, _) => Value.date d
    else (Iso.dateTime text).map Value.dateTime
  match value? with
  | some value => .ok value
  | none => .error (.invalidDate (String.ofList text))

def isQuote (c : Char) : Bool := c == '"' || c == '\''

/-- The text without a quote at its start and without one at its end. -/
def unquote (text : List Char) : List Char :=
  let body := match text with
    | c :: rest => if isQuote c then rest else text
    | [] => []
  let closing := dropFinalNewline body
  if closing.getLast?.any isQuote then closing.dropLast ++ body.drop closing.length
  else body

/-- A literal that is no list. -/
def readScalar (text : List Char) : Except Fault Value :=
  if text = "true".toList then .ok (.bool true)
  else if text = "false".toList then .ok (.bool false)
  else
    match numberParts? (dropFinalNewline text) with
    | some (negative, whole, fraction?) => numberValue negative whole fraction?
    | none =>
      if Iso.looksLikeDate text then readDate text
      else .ok (.str (String.ofList (unquote text)))

theorem length_dropTrailingComma_le (text : List Char) :
    (dropTrailingComma text).length ≤ text.length := by
  unfold dropTrailingComma
  split <;> simp

theorem length_strip_le (text : List Char) : (strip text).length ≤ text.length := by
  have h (l : List Char) : (l.dropWhile isBlank).length ≤ l.length :=
    (List.dropWhile_suffix isBlank).length_le
  simp only [strip, stripEnd, List.length_reverse]
  exact Nat.le_trans (h _) (by simpa using h text)

theorem length_lt_of_bracketed? {text inner : List Char} (h : bracketed? text = some inner) :
    inner.length < text.length := by
  unfold bracketed? at h
  split at h
  · next rest =>
    split at h
    · cases h
      calc rest.dropLast.length
        _ ≤ rest.length := (List.dropLast_prefix rest).length_le
        _ < ('[' :: rest).length := Nat.lt_succ_self _
    · simp at h
  · simp at h

theorem length_lt_of_mem_items {text inner item : List Char}
    (hinner : bracketed? (core text) = some inner) (hitem : item ∈ items inner) :
    item.length < text.length :=
  calc item.length
    _ ≤ inner.length := length_le_of_mem_pieces (List.mem_filter.1 hitem).1
    _ < (core text).length := length_lt_of_bracketed? hinner
    _ ≤ (strip text).length := length_dropTrailingComma_le _
    _ ≤ text.length := length_strip_le text

/-- The value that a text stands for. -/
def read (text : List Char) : Except Fault Value :=
  match h : bracketed? (core text) with
  | some inner => do
    return .tuple (← (items inner).attach.mapM fun item =>
      have := length_lt_of_mem_items h item.2
      read item.1)
  | none => readScalar (core text)
termination_by text.length

theorem read_of_bracketed? {text inner : List Char} (h : bracketed? (core text) = some inner) :
    read text = Value.tuple <$> (items inner).mapM read := by
  rw [read]
  split
  · next inner' h' =>
    cases h.symm.trans h'
    rw [List.mapM_subtype fun _ _ => rfl, List.unattach_attach]
    rfl
  · next h' => simp [h] at h'

theorem read_of_not_bracketed? {text : List Char} (h : bracketed? (core text) = none) :
    read text = readScalar (core text) := by
  rw [read]
  split
  · next h' => simp [h] at h'
  · rfl

mutual

/-- The value as plans show it. -/
def write : Value → List Char
  | .bool b => if b then "true".toList else "false".toList
  | .dateTime t => t.iso
  | .tuple values => '[' :: writeItems values ++ [']']
  | v => v.plain

def writeItems : List Value → List Char
  | [] => []
  | [value] => write value
  | value :: rest => write value ++ ", ".toList ++ writeItems rest

end

end Literal

end PropertyGraph
