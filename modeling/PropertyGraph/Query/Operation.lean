import PropertyGraph.Text.Case

/-!
Operations of queries. An operation is known by its name in capital letters; names that the engine
does not know are kept, and refused when the query is executed.
-/

namespace PropertyGraph

structure Operation where
  tag : String
  deriving DecidableEq

namespace Operation

def fetch : Operation := ⟨"FETCH"⟩
def traverse : Operation := ⟨"GRAPH_TRAVERSE"⟩

/-- The second name of the traversal. -/
def traverseAlias : String := "GRAPH_QUERY"

/-- The operation of a name, in whatever case. -/
def named (name : String) : Operation :=
  let tag := String.ofList (Text.upper name.toList)
  if tag = traverseAlias then traverse else ⟨tag⟩

end Operation

end PropertyGraph
