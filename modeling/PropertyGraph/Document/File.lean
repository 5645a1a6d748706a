import PropertyGraph.Document.Basic
import PropertyGraph.Record.Basic

/-!
What files of documents hold: nodes, as a list of records or under `nodes` in a mapping, and
settings, as a mapping. A file that is not there has no text.
-/

namespace PropertyGraph

/-- Why a file holds no nodes. -/
inductive NodeFileError where
  | missing
  | malformed
  | scalar (fault : Document.ScalarFault)
  | notList
  | record (e : RecordError)

namespace NodeFileError

def ofDocumentError : DocumentError → NodeFileError
  | .malformed => malformed
  | .scalar fault => scalar fault

/-- What is wrong with the file at a path. -/
def message (path : String) : NodeFileError → String
  | missing => "Node file not found: " ++ path
  | malformed => "Invalid node file " ++ path
  | scalar fault => fault.message
  | notList => "Node file " ++ path ++ " must contain a list of node records"
  | record _ => "(validation)"

end NodeFileError

namespace Node

/-- The nodes of a document. Null holds none; the first record that is wrong is reported. -/
def listOfDocument [Validation] (document : Value) : Except NodeFileError (List Node) :=
  let records :=
    match document with
    | .dict entries => (Value.field? entries "nodes").getD .null
    | v => v
  match records with
  | .null => .ok []
  | .list items => (items.mapM Node.ofRecord).mapError .record
  | _ => .error .notList

/-- The nodes of a file. -/
def listOfFile [Validation] (text? : Option String) : Except NodeFileError (List Node) := do
  let some text := text? | .error .missing
  listOfDocument (← (Document.value text).mapError .ofDocumentError)

end Node

/-- Why a file holds no settings. -/
inductive SettingsFileError where
  | missing
  | malformed
  | scalar (fault : Document.ScalarFault)
  | notMapping

namespace SettingsFileError

def ofDocumentError : DocumentError → SettingsFileError
  | .malformed => malformed
  | .scalar fault => scalar fault

/-- What is wrong with the file at a path. -/
def message (path : String) : SettingsFileError → String
  | missing =>
    "Config file not found: " ++ path ++
      "\nPlease create a config.yaml file or specify path with --config"
  | malformed => "Invalid YAML in " ++ path
  | scalar fault => fault.message
  | notMapping => "Invalid config: top level of " ++ path ++ " must be a mapping"

end SettingsFileError

namespace Document

/-- The entries of a document of settings. Null holds none. -/
def settingsEntries : Value → Except SettingsFileError (List (Value × Value))
  | .null => .ok []
  | .dict entries => .ok entries
  | _ => .error .notMapping

/-- The entries of a file of settings. -/
def settingsOfFile (text? : Option String) :
    Except SettingsFileError (List (Value × Value)) := do
  let some text := text? | .error .missing
  settingsEntries (← (Document.value text).mapError .ofDocumentError)

end Document

end PropertyGraph
