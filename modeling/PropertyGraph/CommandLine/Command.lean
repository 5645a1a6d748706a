import PropertyGraph.CommandLine.Argument
import PropertyGraph.Number.Numeral

/-!
The commands of the command line, and how their arguments are read.
-/

namespace PropertyGraph.CommandLine

/-- Where a query text comes from. -/
inductive QuerySource where
  | input
  | file (path : String)
  deriving DecidableEq

def QuerySource.ofWord (word : String) : QuerySource := if word = "-" then .input else .file word

inductive Command where
  | query (source : QuerySource) (nodes? : Option String)
  | explain (source : QuerySource)
  | plan (source : QuerySource)
  | draft (request : String)
  | statistics (nodes? : Option String)
  | similar (nodes : String) (vector : String) (type? : Option String) (limit? : Option Int)
      (threshold? : Option Double)
  | traverse (start : String) (nodes : String) (relationships : List String)
      (depth? : Option Int)

/-- A command, and the file of settings if one is named. -/
structure Invocation where
  settings? : Option String
  command : Command

def integer? (text : String) : Option Int := (Numeral.integer text.toList).toOption

def double? (text : String) : Option Double := Numeral.double text.toList

def configFlag : Flag := { name := "--config" }
def nodesFlag : Flag := { name := "--nodes" }
def vectorFlag : Flag := { name := "--vector" }
def typeFlag : Flag := { name := "--type" }
def limitFlag : Flag := { name := "--limit", accepts := fun text => (integer? text).isSome }
def thresholdFlag : Flag :=
  { name := "--threshold", accepts := fun text => (double? text).isSome }
def relationshipFlag : Flag := { name := "--rel" }
def depthFlag : Flag := { name := "--depth", accepts := fun text => (integer? text).isSome }

/-- Read the arguments of a command; nothing may be left over. -/
def readAll (flags : List Flag) (rule : WordRule) (arguments : List String) :
    Except Usage Found := do
  let (found, _) ← gather rule {} (← classifyAll flags arguments)
  return found

namespace Command

/-- The command of a name, with what was found among its arguments. -/
def ofFound (name : String) (arguments : List String) : Except Usage (Command × Found) := do
  match name with
  | "query" =>
    let found ← readAll [nodesFlag] .one arguments
    return (.query (.ofWord (← found.word)) (found.value? nodesFlag.name), found)
  | "explain" =>
    let found ← readAll [] .one arguments
    return (.explain (.ofWord (← found.word)), found)
  | "plan" =>
    let found ← readAll [] .one arguments
    return (.plan (.ofWord (← found.word)), found)
  | "nl" =>
    let found ← readAll [] .one arguments
    return (.draft (← found.word), found)
  | "stats" =>
    let found ← readAll [nodesFlag] .none arguments
    return (.statistics (found.value? nodesFlag.name), found)
  | "similar" =>
    let found ← readAll [nodesFlag, vectorFlag, typeFlag, limitFlag, thresholdFlag] .none arguments
    return (.similar (← found.required nodesFlag.name) (← found.required vectorFlag.name)
      (found.value? typeFlag.name) ((found.value? limitFlag.name).bind integer?)
      ((found.value? thresholdFlag.name).bind double?), found)
  | "traverse" =>
    let found ← readAll [nodesFlag, relationshipFlag, depthFlag] .one arguments
    return (.traverse (← found.word) (← found.required nodesFlag.name)
      (found.all relationshipFlag.name) ((found.value? depthFlag.name).bind integer?), found)
  | _ => .error .badArguments

end Command

/-- The settings at the default path are read if they are there. -/
def defaultSettings : String := "config.yaml"

def QuerySource.paths : QuerySource → List String
  | input => []
  | file path => [path]

/-- The paths of the files that a command reads. -/
def Command.paths : Command → List String
  | .query source nodes? => nodes?.toList ++ source.paths
  | .explain source | .plan source => source.paths
  | .draft _ => []
  | .statistics nodes? => nodes?.toList
  | .similar nodes .. | .traverse _ nodes .. => [nodes]

/-- The command reads its input. -/
def Command.readsInput : Command → Bool
  | .query .input _ | .explain .input | .plan .input => true
  | _ => false

namespace Invocation

/-- The paths of the files that are read. -/
def paths (invocation : Invocation) : List String :=
  invocation.settings?.getD defaultSettings :: invocation.command.paths

/-- Read a command line. Everything after the name of the command belongs to the command. -/
def ofArguments (arguments : List String) : Except Usage Invocation := do
  let (front, rest) ← gather .last {} (← classifyAll [configFlag] arguments)
  match arguments.drop (arguments.length - rest.length) with
  | [] => .error (if front.hasSurplus then .badArguments else .noCommand)
  | name :: arguments =>
    let (command, found) ← Command.ofFound name arguments
    if front.hasSurplus || found.hasSurplus then .error .badArguments
    else return ⟨front.value? configFlag.name, command⟩

end Invocation

end PropertyGraph.CommandLine
