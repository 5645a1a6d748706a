import PropertyGraph.Store.Basic

/-!
Breadth-first traversal along outgoing edges. Level by level, the nodes that were not met before
are found; the edges that leave them lead to the next level. Edges that lead to no stored node are
passed over.
-/

namespace PropertyGraph

namespace Traversal

/-- The nodes that are met for the first time at one level, and all nodes met by then. -/
def meet (nodes : OrderedMap String Node) (met : List String) :
    List String → List Node × List String
  | [] => ([], met)
  | id :: rest =>
    if id ∈ met then meet nodes met rest
    else
      match nodes.get? id with
      | none => meet nodes met rest
      | some node =>
        let (found, met) := meet nodes (id :: met) rest
        (node :: found, met)

/-- Where the edges of the given relationships lead from some nodes. -/
def targets (relationships : List String) (found : List Node) : List String :=
  found.flatMap fun node =>
    (node.edges.filter fun edge => edge.relationship ∈ relationships).map Edge.targetKey

/-- The nodes met at the next levels, as many as there are left. -/
def levels (nodes : OrderedMap String Node) (relationships : List String) :
    Nat → List String → List String → List Node
  | 0, _, _ => []
  | left + 1, met, frontier =>
    if frontier.isEmpty then []
    else
      let (found, met) := meet nodes met frontier
      found ++ levels nodes relationships left met (targets relationships found)

/-- The nodes that at most `depth` edges lead to from the start, nearer ones first. The start is
none of them; a negative depth allows no step. -/
def reach (nodes : OrderedMap String Node) (start : String) (relationships : List String)
    (depth : Int) : List Node :=
  let (found, met) := meet nodes [] [start]
  levels nodes relationships depth.toNat met (targets relationships found)

end Traversal

end PropertyGraph
