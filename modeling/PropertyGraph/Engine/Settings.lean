import PropertyGraph.Number.Numeral
import PropertyGraph.Text.Case
import PropertyGraph.Value.Text

/-!
Settings of the engine, read from a document. Each section is a mapping, and each setting is
converted to its type; what is missing takes its default. Ranges are checked last.
-/

namespace PropertyGraph

structure Settings where
  cacheEnabled : Bool := true
  /-- Seconds for which an answer is kept. -/
  cacheLifetime : Double := .ofInt 300
  /-- The filings of a node are taken away when it is added again. -/
  replaceEntries : Bool := true
  maxDepth : Int := 2
  vectorLimit : Int := 10
  vectorThreshold : Double := .ofDecimal false 7 (-1)
  logLevel : String := "INFO"
  deriving Inhabited

/-- Why a document holds no settings. -/
inductive SettingsError where
  | notMapping (kind : Value.Kind)
  | notTruthValue (name : String) (value : Value)
  | notNumber (kind : Value.Kind)
  | malformedNumber (value : Value)
  | notInteger (kind : Value.Kind)
  | malformedInteger (value : Value)
  | oversizedInteger (e : OversizedInteger)
  | arithmetic (e : ArithmeticError)
  | outOfRange (name range value : String)

namespace SettingsError

def message : SettingsError → String
  | notMapping kind => s!"'{kind.name}' object has no attribute 'get'"
  | notTruthValue name value =>
    name ++ " must be true or false, got " ++ String.ofList value.shown
  | notNumber kind => s!"float() argument must be a string or a real number, not '{kind.name}'"
  | malformedNumber value => "could not convert string to float: " ++ String.ofList value.shown
  | notInteger kind =>
    s!"int() argument must be a string, a bytes-like object or a real number, not '{kind.name}'"
  | malformedInteger value =>
    "invalid literal for int() with base 10: " ++
      String.ofList (value.shown.take quotationLimit)
  | oversizedInteger e => e.message
  | arithmetic e => e.message
  | outOfRange name range value => name ++ " must be " ++ range ++ ", got " ++ value

end SettingsError

namespace Value

/-- The text that bytes spell, one character each. A byte beyond ASCII spells no digit and no
blank. -/
def spelled (data : List UInt8) : List Char :=
  data.map fun byte => if byte < 0x80 then Char.ofNat byte.toNat else '\uFFFD'

/-- The binary64 number that a value converts to. -/
def toDouble (v : Value) : Except SettingsError Double :=
  let parsed (text : List Char) : Except SettingsError Double :=
    match Numeral.double text with
    | some x => .ok x
    | none => .error (.malformedNumber v)
  match v with
  | .str s => parsed s.toList
  | .bytes data => parsed (spelled data)
  | _ =>
    match v.numeric? with
    | some n => n.toDouble.mapError .arithmetic
    | none => .error (.notNumber v.kind)

/-- The integer that a value converts to; a fraction is cut off. -/
def toInteger (v : Value) : Except SettingsError Int :=
  let parsed (text : List Char) : Except SettingsError Int :=
    match Numeral.integer text with
    | .ok n => .ok n
    | .error (.oversized e) => .error (.oversizedInteger e)
    | .error (.malformed _) => .error (.malformedInteger v)
  match v with
  | .str s => parsed s.toList
  | .bytes data => parsed (spelled data)
  | _ =>
    match v.numeric? with
    | some n => n.truncate.mapError .arithmetic
    | none => .error (.notInteger v.kind)

end Value

namespace Settings

/-- A section of the document; one that is missing or counts as false is an empty mapping. -/
def sectionOf (document : List (Value × Value)) (name : String) : Value :=
  match Value.field? document name with
  | some value => if value.isFalsy then .dict [] else value
  | none => .dict []

/-- A setting of a section, converted; the default if it is missing. -/
def setting (part : Value) (name : String) (default : α)
    (convert : Value → Except SettingsError α) : Except SettingsError α :=
  match part with
  | .dict entries => (Value.field? entries name).elim (.ok default) convert
  | _ => .error (.notMapping part.kind)

def truthValue (name : String) : Value → Except SettingsError Bool
  | .bool b => .ok b
  | v => .error (.notTruthValue name v)

/-- The name of a log level, in capital letters. -/
def levelName (v : Value) : String := String.ofList (Text.upper v.plain)

/-- The first setting that is out of its range. -/
def outOfRange? (s : Settings) : Option SettingsError :=
  let zero := Double.zero
  let one := Double.ofInt 1
  let below (x y : Double) : Bool := x < y
  let within (x : Double) : Bool := !x.isNaN && !below x one.neg && !below one x
  if below s.cacheLifetime zero then
    some (.outOfRange "cache.ttl_seconds" ">= 0" (String.ofList s.cacheLifetime.text))
  else if s.maxDepth < 0 then
    some (.outOfRange "traversal.max_depth" ">= 0" (String.ofList (Text.intDigits s.maxDepth)))
  else if s.vectorLimit < 0 then
    some (.outOfRange "vector_search.limit" ">= 0"
      (String.ofList (Text.intDigits s.vectorLimit)))
  else if !within s.vectorThreshold then
    some (.outOfRange "vector_search.threshold" "within [-1, 1]"
      (String.ofList s.vectorThreshold.text))
  else none

/-- The settings of a document before their ranges are checked. -/
def convert (document : List (Value × Value)) : Except SettingsError Settings := do
  let defaults : Settings := {}
  let cache := sectionOf document "cache"
  let engine := sectionOf document "engine"
  let traversal := sectionOf document "traversal"
  let vectors := sectionOf document "vector_search"
  let logging := sectionOf document "logging"
  return {
    cacheEnabled := ← setting cache "enabled" defaults.cacheEnabled (truthValue "cache.enabled")
    cacheLifetime := ← setting cache "ttl_seconds" defaults.cacheLifetime Value.toDouble
    replaceEntries := ← setting engine "replace_index_entries" defaults.replaceEntries
      (truthValue "engine.replace_index_entries")
    maxDepth := ← setting traversal "max_depth" defaults.maxDepth Value.toInteger
    vectorLimit := ← setting vectors "limit" defaults.vectorLimit Value.toInteger
    vectorThreshold := ← setting vectors "threshold" defaults.vectorThreshold Value.toDouble
    logLevel := ← setting logging "level" (levelName (.str defaults.logLevel))
      (fun v => .ok (levelName v)) }

/-- The settings of a document. -/
def ofDocument (document : List (Value × Value)) : Except SettingsError Settings := do
  let settings ← convert document
  match settings.outOfRange? with
  | some e => .error e
  | none => return settings

end Settings

/-- The numeric level of a log level name; names that are not known stand for `INFO`. -/
def logLevelNumber (name : String) : Nat :=
  match String.ofList (Text.upper name.toList) with
  | "NOTSET" => 0
  | "DEBUG" => 10
  | "INFO" => 20
  | "WARN" | "WARNING" => 30
  | "ERROR" => 40
  | "CRITICAL" | "FATAL" => 50
  | _ => 20

end PropertyGraph
