import PropertyGraph.Node
import PropertyGraph.Store.Index
import PropertyGraph.Value.Key

/-!
The store of nodes. Besides the nodes themselves it keeps three indexes: by type, by property value
and by outgoing edges. Adding a node files it in each of them; whether the filings of an earlier
node of the same identity are taken away first is a policy of the store.

The name of an edge entry joins the source and the relationship with a colon.
-/

namespace PropertyGraph

/-- What a node is filed under for a property. A value that holds a NaN equals no other, so it is
filed for its owner alone. -/
structure PropertyKey where
  name : String
  value : ValueKey
  owner : Option String
  deriving DecidableEq

/-- What happens to the filings of a node that is added again. -/
inductive ReplacePolicy where
  /-- They are taken away. -/
  | replace
  /-- They stay, beside the new ones. -/
  | keep
  deriving DecidableEq

/-- Why a node is not added. -/
structure NotScalar where
  property : String
  node : String
  value : Value

def NotScalar.message (e : NotScalar) : String :=
  "Property " ++ String.ofList (Text.quoted e.property.toList) ++ " of node " ++ e.node ++
    " is not a scalar: " ++ String.ofList e.value.shown

structure Store where
  nodes : OrderedMap String Node
  byType : Index String
  byProperty : Index PropertyKey
  byEdge : Index String
  deriving Inhabited

/-- How many nodes of a type there are. -/
structure TypeCount where
  type : String
  count : Nat
  deriving DecidableEq

namespace Node

/-- The first property that cannot be filed. -/
def notScalar? (node : Node) : Option NotScalar :=
  (node.properties.entries.find? fun entry => !entry.2.isScalar).map fun entry =>
    ⟨entry.1, node.key, entry.2⟩

/-- What the node is filed under for one property. -/
def propertyKey? (node : Node) (name : String) (value : Value) : Option PropertyKey :=
  value.key?.map fun key => ⟨name, key, if key.isReflexive then none else some node.key⟩

def typeFilings (node : Node) : List (String × String) := [(node.type, node.key)]

def propertyFilings (node : Node) : List (PropertyKey × String) :=
  node.properties.entries.filterMap fun entry =>
    (node.propertyKey? entry.1 entry.2).map fun key => (key, node.key)

/-- The name under which the targets of a relationship are filed. -/
def edgeName (source relationship : String) : String := source ++ ":" ++ relationship

def edgeFilings (node : Node) : List (String × String) :=
  node.edges.map fun edge => (edgeName node.key edge.relationship, edge.targetKey)

end Node

namespace Store

def empty : Store := ⟨∅, ∅, ∅, ∅⟩

instance : EmptyCollection Store := ⟨empty⟩

/-- Take the filings of a node from the indexes. -/
def unfile (store : Store) (node : Node) : Store :=
  { store with
    byType := store.byType.unfileAll node.typeFilings
    byProperty := store.byProperty.unfileAll node.propertyFilings
    byEdge := store.byEdge.unfileAll node.edgeFilings }

/-- File a node in the indexes. -/
def file (store : Store) (node : Node) : Store :=
  { store with
    byType := store.byType.fileAll node.typeFilings
    byProperty := store.byProperty.fileAll node.propertyFilings
    byEdge := store.byEdge.fileAll node.edgeFilings }

@[simp] theorem unfile_nodes (store : Store) (node : Node) :
    (store.unfile node).nodes = store.nodes := rfl

@[simp] theorem unfile_byType (store : Store) (node : Node) :
    (store.unfile node).byType = store.byType.unfileAll node.typeFilings := rfl

@[simp] theorem unfile_byProperty (store : Store) (node : Node) :
    (store.unfile node).byProperty = store.byProperty.unfileAll node.propertyFilings := rfl

@[simp] theorem unfile_byEdge (store : Store) (node : Node) :
    (store.unfile node).byEdge = store.byEdge.unfileAll node.edgeFilings := rfl

@[simp] theorem file_nodes (store : Store) (node : Node) :
    (store.file node).nodes = store.nodes := rfl

@[simp] theorem file_byType (store : Store) (node : Node) :
    (store.file node).byType = store.byType.fileAll node.typeFilings := rfl

@[simp] theorem file_byProperty (store : Store) (node : Node) :
    (store.file node).byProperty = store.byProperty.fileAll node.propertyFilings := rfl

@[simp] theorem file_byEdge (store : Store) (node : Node) :
    (store.file node).byEdge = store.byEdge.fileAll node.edgeFilings := rfl

/-- The store without the filings of the node that is to be replaced. -/
def prepare (policy : ReplacePolicy) (store : Store) (key : String) : Store :=
  match policy, store.nodes.get? key with
  | .replace, some previous => store.unfile previous
  | _, _ => store

@[simp] theorem prepare_nodes (policy : ReplacePolicy) (store : Store) (key : String) :
    (store.prepare policy key).nodes = store.nodes := by
  unfold prepare
  split <;> rfl

/-- Add a node, or put it in the place of the one of its identity. A node with a property that
cannot be filed is refused. -/
def add (policy : ReplacePolicy) (store : Store) (node : Node) : Except NotScalar Store :=
  match node.notScalar? with
  | some e => .error e
  | none =>
    let prepared := store.prepare policy node.key
    .ok ({ prepared with nodes := prepared.nodes.insert node.key node }.file node)

section

variable {policy : ReplacePolicy} {store : Store} {node : Node}

/-- An accepted node is put under its identity and filed, once its predecessor's filings are gone. -/
theorem add_eq_ok_iff {after : Store} :
    store.add policy node = .ok after ↔ node.notScalar? = none ∧
      { store.prepare policy node.key with
        nodes := store.nodes.insert node.key node }.file node = after := by
  unfold add
  cases node.notScalar? <;> simp

theorem add_eq_error_iff {e : NotScalar} :
    store.add policy node = .error e ↔ node.notScalar? = some e := by
  unfold add
  cases node.notScalar? <;> simp

end

/-- Add nodes until one is refused; those before it stay. -/
def addAll (policy : ReplacePolicy) (store : Store) : List Node → Store × Option NotScalar
  | [] => (store, none)
  | node :: rest =>
    match store.add policy node with
    | .ok store => store.addAll policy rest
    | .error e => (store, some e)

/-- The node of an identity. -/
def node? (store : Store) (id : Value) : Option Node := store.nodes.get? id.canonicalId

/-- The nodes of identities, those that are stored. -/
def resolve (store : Store) (ids : List String) : List Node := ids.filterMap store.nodes.get?

/-- The nodes of a type, in the order in which they were filed. -/
def nodesOfType (store : Store) (type : String) : List Node :=
  store.resolve (store.byType.idsOf type)

/-- The nodes with a property of a value. A value that holds a NaN finds nothing, nor does one
that cannot be filed. -/
def nodesWith (store : Store) (name : String) (value : Value) : List Node :=
  match value.key? with
  | some key => store.resolve (store.byProperty.idsOf ⟨name, key, none⟩)
  | none => []

def size (store : Store) : Nat := store.nodes.size

/-- The types in the index with their numbers of nodes. -/
def typeCounts (store : Store) : List TypeCount :=
  store.byType.entries.map fun entry => ⟨entry.1, entry.2.length⟩

/-- The names of the properties in the index, each once. -/
def propertyNames (store : Store) : List String :=
  (store.byProperty.keys.map (·.name)).eraseDups

end Store

end PropertyGraph
