import PropertyGraph.Node

/-!
Similarity of embeddings, by the cosine of the angle between them, and the nodes most similar to a
vector. How vectors are computed with is a parameter: the order in which products are summed up and
rounded decides about the last digits of a score, and does not concern how scores are ranked.
-/

namespace PropertyGraph

/-- What is computed with vectors: their coordinates in binary64, of which some numbers have none, and
the product of two vectors and the length of one, which are rounded in some way. -/
class VectorArithmetic where
  coordinates : List Number → Except ArithmeticError (List Double)
  dot : List Double → List Double → Double
  norm : List Double → Double

/-- The sum of the products of coordinates from left to right. -/
def Double.sumOfProducts (a b : List Double) : Double :=
  (List.zipWith (· * ·) a b).foldl (· + ·) .zero

/-- The arithmetic that sums up from left to right, with which the program is run. -/
instance VectorArithmetic.leftToRight : VectorArithmetic where
  coordinates vector := vector.mapM Number.toDouble
  dot := Double.sumOfProducts
  norm a := (Double.sumOfProducts a a).sqrt

namespace Similarity

variable [VectorArithmetic]

open VectorArithmetic

/-- The cosine of the angle between two vectors: zero if their numbers of coordinates differ or one of
them has no length. -/
def cosine (a b : List Number) : Except ArithmeticError Double :=
  if a.length ≠ b.length then .ok .zero
  else do
    let x ← coordinates a
    let y ← coordinates b
    if (norm x).isZero || (norm y).isZero then return .zero
    else return dot x y / (norm x * norm y)

/-- A node with its score. -/
structure Scored where
  node : Node
  score : Double

/-- The nodes that have an embedding, with their scores. -/
def scoreAll (vector : List Number) : List Node → Except ArithmeticError (List Scored)
  | [] => .ok []
  | node :: rest =>
    match node.embedding with
    | none => scoreAll vector rest
    | some embedding => do
      let score ← cosine vector embedding
      return ⟨node, score⟩ :: (← scoreAll vector rest)

/-- The first scored node comes no later than the second: its score is no lower. -/
def ranksBefore (a b : Scored) : Bool := !decide (a.score < b.score)

/-- Of scored nodes the best, at most `limit`, with scores of at least `threshold`; equal scores
stay in order. -/
def select (limit : Nat) (threshold : Number) (scored : List Scored) : List Scored :=
  ((scored.filter fun s => threshold ≤ .float s.score).mergeSort ranksBefore).take limit

/-- Why nodes are not ranked. -/
inductive RankError where
  | negativeLimit (limit : Int)
  | arithmetic (e : ArithmeticError)
  deriving DecidableEq

def RankError.message : RankError → String
  | negativeLimit limit => "limit must be >= 0, got " ++ String.ofList (Text.intDigits limit)
  | arithmetic e => e.message

/-- The nodes most similar to a vector. -/
def rank (vector : List Number) (nodes : List Node) (limit : Int) (threshold : Number) :
    Except RankError (List Scored) :=
  if limit < 0 then .error (.negativeLimit limit)
  else
    match scoreAll vector nodes with
    | .ok scored => .ok (select limit.toNat threshold scored)
    | .error e => .error (.arithmetic e)

end Similarity

end PropertyGraph
