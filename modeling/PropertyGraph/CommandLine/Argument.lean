import PropertyGraph.Text.Digit
import PropertyGraph.Text.Split

/-!
The arguments of a command line. Names of flags may be shortened as long as one flag only is meant,
and a value may be attached to its flag with an equals sign. After two hyphens every argument is a
word.
-/

namespace PropertyGraph.CommandLine

open Text

/-- Why nothing is carried out and the usage is shown instead. -/
inductive Usage where
  | asked
  | noCommand
  | badArguments
  deriving DecidableEq

def Usage.exitCode : Usage → Nat
  | asked => 0
  | noCommand => 1
  | badArguments => 2

/-- A flag that takes one value. -/
structure Flag where
  name : String
  accepts : String → Bool := fun _ => true

inductive Argument where
  | word (text : String)
  | flag (flag : Flag) (attached? : Option String)
  /-- The flag that asks for the usage; it takes no value. -/
  | help (isPlain : Bool)
  | unknown
  /-- Two hyphens. -/
  | divider

def helpName : String := "--help"

/-- An argument that looks like a negative number is a word. -/
def looksNegative : List Char → Bool
  | '-' :: body =>
    let (whole, rest) := body.span isDigit
    match rest with
    | [] => !whole.isEmpty
    | '.' :: fraction => !fraction.isEmpty && fraction.all isDigit
    | _ => false
  | _ => false

/-- The flag that a name stands for, the whole of it or its beginning. None if no flag begins so,
an error if several do; the flag for help is among them. -/
def resolve (flags : List Flag) (name : String) : Except Usage (Option (Option Flag)) :=
  let begins (full : String) := name.toList.isPrefixOf full.toList
  let help := if begins helpName then [none] else []
  match help ++ (flags.filter fun flag => begins flag.name).map some with
  | [] => .ok none
  | [found] => .ok (some found)
  | _ => .error .badArguments

/-- Help asked for by its letter. The letter may be repeated, and letters of no meaning are passed
over, but no value can be attached. -/
def helpLetters (letters : List Char) : Argument :=
  .help ((letters.dropWhile (· == 'h')).head?.all fun c => c != '=' && c != '-')

/-- A flag or help, with what is attached to it. -/
def named (flag? : Option Flag) (attached? : Option (List Char)) : Argument :=
  match flag? with
  | some flag => .flag flag (attached?.map String.ofList)
  | none => .help attached?.isNone

/-- An argument that begins with a hyphen and names no flag. -/
def unnamed (text : List Char) : Argument :=
  if looksNegative text || text.contains ' ' then .word (String.ofList text) else .unknown

/-- What an argument before the divider is. -/
def classify (flags : List Flag) (argument : String) : Except Usage Argument :=
  let text := argument.toList
  let (name, attached?) := cut '=' text
  let whole? (name : List Char) := flags.find? (·.name.toList == name)
  match text with
  | '-' :: 'h' :: letters => .ok (helpLetters letters)
  | '-' :: '-' :: _ =>
    match whole? text, whole? name with
    | some flag, _ => .ok (named (some flag) none)
    | none, some flag => .ok (named (some flag) attached?)
    | none, none => do
      match ← resolve flags (String.ofList name) with
      | some found => return named found attached?
      | none => return unnamed text
  | '-' :: _ :: _ => .ok (unnamed text)
  | _ => .ok (.word argument)

/-- What the arguments are. -/
def classifyAll (flags : List Flag) : List String → Except Usage (List Argument)
  | [] => .ok []
  | argument :: rest =>
    if argument = "--" then .ok (.divider :: rest.map .word)
    else do return (← classify flags argument) :: (← classifyAll flags rest)

/-- Which words a command takes among its flags. -/
inductive WordRule where
  | none
  | one
  /-- The first word ends the flags. -/
  | last
  deriving DecidableEq

/-- What was found among arguments. -/
structure Found where
  word? : Option String := none
  /-- The values of flags with their names, in order. -/
  values : List (String × String) := []
  /-- Something was found that does not belong there. -/
  hasSurplus : Bool := false

namespace Found

/-- The value of a flag; the last one counts. -/
def value? (found : Found) (name : String) : Option String :=
  (found.values.reverse.find? (·.1 == name)).map Prod.snd

/-- The value of a flag that must be given. -/
def required (found : Found) (name : String) : Except Usage String :=
  (found.value? name).elim (.error .badArguments) .ok

/-- The word that must be given. -/
def word (found : Found) : Except Usage String :=
  found.word?.elim (.error .badArguments) .ok

/-- All values of a flag. -/
def all (found : Found) (name : String) : List String :=
  (found.values.filter (·.1 == name)).map Prod.snd

def take (found : Found) (flag : Flag) (value : String) : Except Usage Found :=
  if flag.accepts value then .ok { found with values := found.values ++ [(flag.name, value)] }
  else .error .badArguments

def surplus (found : Found) : Found := { found with hasSurplus := true }

end Found

/-- Go through arguments from left to right; the arguments that are left over begin with the word
that ended the flags. -/
def gather (rule : WordRule) (found : Found) :
    List Argument → Except Usage (Found × List Argument)
  | [] => .ok (found, [])
  | .help isPlain :: _ => .error (if isPlain then .asked else .badArguments)
  | .unknown :: rest => gather rule found.surplus rest
  | .flag flag (some value) :: rest => do gather rule (← found.take flag value) rest
  | .flag flag none :: .word value :: rest => do gather rule (← found.take flag value) rest
  | .flag _ none :: _ => .error .badArguments
  | .word text :: .divider :: rest =>
    match rule, found.word? with
    | .last, _ => .ok (found, .word text :: .divider :: rest)
    | .one, none => gather rule { found with word? := some text } rest
    | _, _ => gather rule found.surplus rest
  | .word text :: rest =>
    match rule, found.word? with
    | .last, _ => .ok (found, .word text :: rest)
    | .one, none => gather rule { found with word? := some text } rest
    | _, _ => gather rule found.surplus rest
  | .divider :: .word text :: rest =>
    match rule, found.word? with
    | .last, _ => .error .badArguments
    | .one, none => gather rule { found with word? := some text } rest
    | _, _ => gather rule found.surplus rest
  | .divider :: rest =>
    match rule with
    | .last => .error .badArguments
    | _ => gather rule found.surplus rest

end PropertyGraph.CommandLine
