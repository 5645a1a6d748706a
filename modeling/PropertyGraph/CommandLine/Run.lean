import PropertyGraph.CommandLine.Command
import PropertyGraph.Document.File
import PropertyGraph.Engine.AnswerJson
import PropertyGraph.Language.Template
import PropertyGraph.Record.Lax

/-!
What a command line does, given the files around it and what it reads as input. Most errors are
reported and end the command; a few are taken for failures of the program and are not.
-/

namespace PropertyGraph.CommandLine

/-- What a command can read. -/
structure Surroundings where
  /-- The text of the file at a path, if there is one. -/
  file? : String → Option String
  input : String

inductive CommandError where
  | settingsFile (path : String) (e : SettingsFileError)
  | settings (e : SettingsError)
  | nodeFile (path : String) (e : NodeFileError)
  | node (e : NotScalar)
  | noQueryFile (path : String)
  | text (e : TextError)
  | execution (e : ExecutionError)
  | arithmetic (e : ArithmeticError)
  | vector (text : String)
  | rank (e : Similarity.RankError)
  | json (e : JsonError)

namespace CommandError

def message : CommandError → String
  | settingsFile path e => e.message path
  | settings e => e.message
  | nodeFile path e => e.message path
  | node e => e.message
  | noQueryFile path => "Query file not found: " ++ path
  | text e => e.message
  | execution e => e.message
  | arithmetic e => e.message
  | vector given => "--vector must be comma-separated numbers, got: " ++ given
  | rank e => e.message
  | json e => e.message

/-- The arithmetic error is one of a wrong value, not of too large a number. -/
def isWrongValue : ArithmeticError → Bool
  | .nanToInteger => true
  | _ => false

/-- The error is reported. -/
def isReported : CommandError → Bool
  | settings (.notMapping _) | settings (.notNumber _) | settings (.notInteger _) => false
  | settings (.arithmetic e) | arithmetic e | rank (.arithmetic e) => isWrongValue e
  | execution (.arithmetic e) => isWrongValue e
  | execution (.noKey e) | json e => e == .oversizedInteger
  | _ => true

end CommandError

/-- How a command ends. -/
inductive Ending where
  /-- The usage is shown. -/
  | usage (reason : Usage)
  | finished (output notes : String)
  | failed (notes : String) (e : CommandError)

namespace Ending

/-- The code with which the command ends. -/
def exitCode : Ending → Nat
  | usage reason => reason.exitCode
  | finished .. => 0
  | failed .. => 1

/-- What is written beside the output: the notes, then the error. -/
def diagnostics : Ending → String
  | usage _ => ""
  | finished _ notes => notes
  | failed notes e => notes ++ "Error: " ++ e.message ++ "\n"

end Ending

/-- A step of a command: it may write notes and it may fail. -/
abbrev Task := ExceptT CommandError (StateM String)

/-- A result or its error, as a task. -/
def orFail (wrap : ε → CommandError) (result : Except ε α) : Task α :=
  match result with
  | .ok a => pure a
  | .error e => throw (wrap e)

def loadSettings (path? : Option String) (around : Surroundings) : Task Settings := do
  let path := path?.getD defaultSettings
  let entries ←
    match path?, around.file? path with
    | none, none => pure []
    | _, text? => orFail (.settingsFile path) (Document.settingsOfFile text?)
  orFail .settings (Settings.ofDocument entries)

/-- An engine with the nodes of a file. An empty path names no file. -/
def loadEngine [Validation] (settings : Settings) (path? : Option String) (around : Surroundings) :
    Task Engine := do
  let engine := Engine.start settings
  match path? with
  | none | some "" => return engine
  | some path =>
    let nodes ← orFail (.nodeFile path) (Node.listOfFile (around.file? path))
    match engine.addAll nodes with
    | (_, some e) => throw (.node e)
    | (engine, none) =>
      let count := String.ofList (Text.natDigits nodes.length)
      modify (· ++ "Loaded " ++ count ++ " nodes from " ++ path ++ "\n")
      return engine

/-- The query that a text writes. -/
def readQuery (source : QuerySource) (around : Surroundings) : Task Query := do
  let text ←
    match source with
    | .input => pure around.input
    | .file path =>
      match around.file? path with
      | some text => pure text
      | none => throw (.noQueryFile path)
  orFail .text (Query.ofText (String.ofList (Text.unifyNewlines text.toList)))

/-- A JSON tree as output. -/
def printed (tree : Except JsonError Json) : Task String := do
  return String.ofList (← orFail .json tree).indented ++ "\n"

/-- The coordinates that a text writes with commas between them. -/
def readVector (text : String) : Task (List Number) :=
  match (Text.pieces (· == ',') text.toList).mapM Numeral.double with
  | some coordinates => return coordinates.map .float
  | none => throw (.vector text)

/-- A command does one thing, so that its time does not matter. -/
def now : Number := .int 0

/-- The output of a command. -/
def Command.perform [VectorArithmetic] [Validation] (settings : Settings) (around : Surroundings) :
    Command → Task String
  | .query source nodes? => do
    let engine ← loadEngine settings nodes? around
    let answer ← orFail .execution (engine.execute (← readQuery source around) now).1
    printed answer.toJson
  | .explain source => do return (← readQuery source around).explain
  | .plan source => do
    let q ← readQuery source around
    printed ((← orFail .arithmetic q.plan).toJson q)
  | .draft request => return Phrasebook.standard.draft request ++ "\n"
  | .statistics nodes? => do
    printed (.ok (← loadEngine settings nodes? around).statistics.toJson)
  | .similar nodes vector type? limit? threshold? => do
    let engine ← loadEngine settings (some nodes) around
    let found := engine.similar (← readVector vector) type? limit? (threshold?.map .float)
    printed (Answer.ofNodes (← orFail .rank found)).toJson
  | .traverse start nodes relationships depth? => do
    let engine ← loadEngine settings (some nodes) around
    printed (Answer.ofNodes (engine.traverse (.str start) relationships depth?)).toJson

/-- The settings are read before the command is carried out, whatever it is. -/
def Invocation.perform [VectorArithmetic] [Validation] (invocation : Invocation)
    (around : Surroundings) : Task String := do
  let settings ← loadSettings invocation.settings? around
  invocation.command.perform settings around

/-- Carry out what a command line asks for. -/
def Invocation.run [VectorArithmetic] [Validation] (invocation : Invocation)
    (around : Surroundings) : Ending :=
  match (invocation.perform around).run "" with
  | (.ok output, notes) => .finished output notes
  | (.error e, notes) => .failed notes e

/-- Carry out a command line. -/
def run [VectorArithmetic] [Validation] (arguments : List String) (around : Surroundings) :
    Ending :=
  match Invocation.ofArguments arguments with
  | .error reason => .usage reason
  | .ok invocation => invocation.run around

end PropertyGraph.CommandLine
