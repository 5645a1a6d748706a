import PropertyGraph.Node
import PropertyGraph.Record.Schema

/-!
Nodes as records: mappings with the fields `id`, `type`, `properties`, `edges` and `embedding`, of
which the first two must be present.
-/

namespace PropertyGraph

/-- Every wrong place of a record. -/
structure RecordError where
  places : List Place

/-- The paths of the wrong places, each once, in order. -/
def RecordError.paths (e : RecordError) : List String :=
  ((e.places.map Place.path).mergeSort (· ≤ ·)).eraseDups

namespace Schema

/-- What a property can be. -/
def scalar : Schema Value := union [.bool, .int, .float, .str, .dateTime, .date]

/-- What identifies a node. -/
def identity : Schema Value := union [.str, .int]

/-- A text that is not empty. -/
def label : Schema String := text 1

end Schema

/-- The parts of an edge: its relationship, target and weight. -/
abbrev Edge.Parts : Type := String × Value × Option Double × Unit

/-- The parts of a node: its identity, type, properties, edges and embedding. -/
abbrev Node.Parts : Type :=
  Value × String × OrderedMap String Value × List Edge.Parts × Option (List Double) × Unit

namespace Schema

def edge : Schema Edge.Parts :=
  model <| .required "relationship" label <| .required "target" identity <|
    .optional "weight" (nullable float) none .nil

def node : Schema Node.Parts :=
  model <| .required "id" identity <| .required "type" label <|
    .optional "properties" (mapping scalar) ∅ <| .optional "edges" (list edge) [] <|
    .optional "embedding" (nullable (list float)) none .nil

end Schema

def Edge.ofParts : Edge.Parts → Edge
  | (relationship, target, weight, ()) => ⟨relationship, target, weight.map .float⟩

def Node.ofParts : Node.Parts → Node
  | (id, type, properties, edges, embedding, ()) =>
    ⟨id, type, properties, edges.map Edge.ofParts, embedding.map (·.map .float)⟩

/-- The node of a record. -/
def Node.ofRecord [Validation] (record : Value) : Except RecordError Node :=
  match Validation.validate Schema.node record with
  | .accepted parts => .ok (ofParts parts)
  | .refused places => .error ⟨places⟩

/-- The edge as a record. -/
def Edge.toRecord (edge : Edge) : Value :=
  .dict [(.str "relationship", .str edge.relationship), (.str "target", edge.target),
    (.str "weight", edge.weight.elim .null .ofNumber)]

/-- The node as a record. -/
def Node.toRecord (node : Node) : Value :=
  .dict [(.str "id", node.id), (.str "type", .str node.type),
    (.str "properties", .dict (node.properties.entries.map fun entry =>
      (.str entry.1, entry.2))),
    (.str "edges", .list (node.edges.map Edge.toRecord)),
    (.str "embedding", node.embedding.elim .null fun coordinates =>
      .list (coordinates.map .ofNumber))]

end PropertyGraph
