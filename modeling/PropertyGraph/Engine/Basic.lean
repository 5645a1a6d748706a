import PropertyGraph.Cache
import PropertyGraph.Engine.Evaluate
import PropertyGraph.Engine.Settings
import PropertyGraph.Language.Draft
import PropertyGraph.Query.Key
import PropertyGraph.Store.Similarity

/-!
The engine: a store, the settings it runs under, and a cache of answers. Answers are cached under
the key of their query and are not withdrawn when nodes are added, only when the engine is cleared
or their time is over; failures are never cached.
-/

namespace PropertyGraph

structure Engine where
  settings : Settings
  store : Store
  cache : Cache Number Answer

/-- Numbers of nodes, of cached answers and of index entries. -/
structure Statistics where
  totalNodes : Nat
  nodesByType : List TypeCount
  cacheSize : Nat
  cacheHits : Nat
  cacheMisses : Nat
  typeCount : Nat
  propertyCount : Nat
  edgeCount : Nat

namespace Statistics

def toJson (s : Statistics) : Json :=
  let count (n : Nat) : Json := .int n
  .object [
    ("total_nodes", count s.totalNodes),
    ("nodes_by_type", .array (s.nodesByType.map fun entry =>
      .object [("type", .str entry.type), ("count", count entry.count)])),
    ("cache_size", count s.cacheSize),
    ("cache_hits", count s.cacheHits),
    ("cache_misses", count s.cacheMisses),
    ("indexes", .object [("types", count s.typeCount), ("properties", count s.propertyCount),
      ("edges", count s.edgeCount)])]

end Statistics

namespace Engine

/-- An engine without nodes. -/
def start (settings : Settings) : Engine where
  settings := settings
  store := ∅
  cache := { lifetime := .float settings.cacheLifetime, enabled := settings.cacheEnabled }

def policy (engine : Engine) : ReplacePolicy :=
  if engine.settings.replaceEntries then .replace else .keep

/-- Add a node. -/
def add (engine : Engine) (node : Node) : Except NotScalar Engine := do
  return { engine with store := ← engine.store.add engine.policy node }

/-- Add nodes until one is refused. -/
def addAll (engine : Engine) (nodes : List Node) : Engine × Option NotScalar :=
  let (store, e?) := engine.store.addAll engine.policy nodes
  ({ engine with store }, e?)

/-- Drop all nodes, index entries and cached answers. -/
def clear (engine : Engine) : Engine :=
  { engine with store := ∅, cache := engine.cache.clear }

/-- The nodes that a walk from a start finds, to the depth of the settings if none is given. -/
def traverse (engine : Engine) (start : Value) (relationships : List String)
    (depth : Option Int := none) : List Node :=
  Traversal.reach engine.store.nodes start.canonicalId relationships
    (depth.getD engine.settings.maxDepth)

/-- The nodes most similar to a vector, of one type if it is given, best first. -/
def similar [VectorArithmetic] (engine : Engine) (vector : List Number) (type : Option String := none)
    (limit : Option Int := none) (threshold : Option Number := none) :
    Except Similarity.RankError (List Node) := do
  let candidates := type.elim engine.store.nodes.values engine.store.nodesOfType
  let ranked ← Similarity.rank vector candidates (limit.getD engine.settings.vectorLimit)
    (threshold.getD (.float engine.settings.vectorThreshold))
  return ranked.map (·.node)

/-- The answer to a query without the cache. -/
def evaluate (engine : Engine) (q : Query) : Except ExecutionError Answer :=
  engine.store.evaluate engine.settings.maxDepth q

/-- Answer a query, from the cache if it holds an answer; a new answer is cached. The clock shows
`now` when the cache is asked, and `done` when a new answer is stored. -/
def execute (engine : Engine) (q : Query) (now : Number) (done : Number := now) :
    Except ExecutionError Answer × Engine :=
  match q.key with
  | .error e => (.error (.noKey e), engine)
  | .ok key =>
    match engine.cache.get key now with
    | (some answer, cache) => (.ok answer, { engine with cache })
    | (none, cache) =>
      match engine.evaluate q with
      | .error e => (.error e, { engine with cache })
      | .ok answer => (.ok answer, { engine with cache := cache.set key answer done })

def statistics (engine : Engine) : Statistics where
  totalNodes := engine.store.size
  nodesByType := engine.store.typeCounts
  cacheSize := engine.cache.size
  cacheHits := engine.cache.hits
  cacheMisses := engine.cache.misses
  typeCount := engine.store.byType.size
  propertyCount := engine.store.propertyNames.length
  edgeCount := engine.store.byEdge.size

end Engine

end PropertyGraph
