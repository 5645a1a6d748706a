import PropertyGraph.OrderedMap
import PropertyGraph.Value.Text

/-!
Nodes: an identity, a type, properties, outgoing edges and an optional embedding. Identities are
compared by their canonical text, so that `1`, `1.0` and `"1"` name one node.
-/

namespace PropertyGraph

/-- The text under which an identity is known. A whole number has one, however it is written and
however many digits it has. -/
def Value.canonicalId : Value → String
  | .float x => String.ofList (if x.isWhole then Text.intDigits x.truncate else x.text)
  | v => String.ofList v.plain

/-- A directed connection, owned by the node that it leaves. -/
structure Edge where
  relationship : String
  target : Value
  weight : Option Number := none

/-- The canonical identity of the node that the edge leads to. -/
def Edge.targetKey (edge : Edge) : String := edge.target.canonicalId

structure Node where
  id : Value
  type : String
  properties : OrderedMap String Value := ∅
  edges : List Edge := []
  embedding : Option (List Number) := none
  deriving Inhabited

namespace Node

/-- The canonical identity of the node. -/
def key (node : Node) : String := node.id.canonicalId

/-- The value of a property; absent properties are null. -/
def property (node : Node) (name : String) : Value := (node.properties.get? name).getD .null

end Node

end PropertyGraph
