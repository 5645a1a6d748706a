import PropertyGraph.Proofs.Except
import PropertyGraph.Proofs.Number.Range
import PropertyGraph.Store.Similarity

/-!
Scores of nodes, whatever arithmetic computes them. Vectors of different lengths have one whatever
their coordinates; those of one length have one exactly if their coordinates are in the range of
binary64. Nodes are scored all or not at all: those without an embedding are passed over, each other
one gets its own score, and one that has none is the error of them all.
-/

namespace PropertyGraph

namespace Number

/-- The number is a float, or an integer that is near to a finite one. -/
def InRange : Number → Prop
  | int n => n.natAbs < Double.overflowThreshold
  | float _ => True

theorem toDouble_eq_error_iff {a : Number} {e : ArithmeticError} :
    a.toDouble = .error e ↔ ¬ a.InRange ∧ e = .integerTooLarge := by
  cases a with
  | int n => rw [toDouble_int_eq_error_iff, InRange, Nat.not_lt]
  | float x => exact iff_of_false nofun fun h => h.1 trivial

theorem toDouble_isOk_iff {a : Number} : (∃ x, a.toDouble = .ok x) ↔ a.InRange := by
  cases h : a.toDouble with
  | error e =>
      refine iff_of_false ?_ (toDouble_eq_error_iff.1 h).1
      rintro ⟨x, hx⟩
      cases hx
  | ok x =>
      refine iff_of_true ⟨x, rfl⟩ (Classical.byContradiction fun hout => ?_)
      have herror := toDouble_eq_error_iff.2 ⟨hout, rfl⟩
      rw [h] at herror
      cases herror

end Number

/-- The coordinates of a vector are the floats nearest to its numbers, all of them or none. Nothing is
said about products and lengths. -/
class LawfulVectorArithmetic [VectorArithmetic] : Prop where
  coordinates_eq (a : List Number) : VectorArithmetic.coordinates a = a.mapM Number.toDouble

instance VectorArithmetic.lawful_leftToRight : @LawfulVectorArithmetic leftToRight where
  coordinates_eq _ := rfl

namespace Similarity

variable {vector a b : List Number} {nodes : List Node}

/-- The vectors differ in length, or their coordinates are in range. -/
def Comparable (a b : List Number) : Prop :=
  a.length = b.length → (∀ x ∈ a, x.InRange) ∧ ∀ y ∈ b, y.InRange

/-- Each embedding of the nodes can be compared with the vector. -/
def ComparesAll (vector : List Number) (nodes : List Node) : Prop :=
  ∀ node ∈ nodes, ∀ embedding, node.embedding = some embedding → Comparable vector embedding

variable [VectorArithmetic]

open VectorArithmetic LawfulVectorArithmetic

section

variable [LawfulVectorArithmetic]

theorem coordinates_isOk_iff : (∃ xs, coordinates a = .ok xs) ↔ ∀ x ∈ a, x.InRange := by
  simp only [coordinates_eq, ← Number.toDouble_isOk_iff]
  exact ⟨fun ⟨_, h⟩ _ hx => ok_of_mapM h hx, exists_mapM⟩

theorem coordinates_eq_error {e : ArithmeticError} (h : coordinates a = .error e) :
    e = .integerTooLarge := by
  rw [coordinates_eq] at h
  obtain ⟨x, -, hx⟩ := mem_of_mapM_eq_error h
  exact (Number.toDouble_eq_error_iff.1 hx).2

theorem cosine_isOk_iff : (∃ score, cosine a b = .ok score) ↔ Comparable a b := by
  unfold cosine Comparable
  by_cases hlength : a.length = b.length
  · rw [if_neg (not_not_intro hlength), forall_prop_of_true hlength, ← coordinates_isOk_iff,
      ← coordinates_isOk_iff]
    constructor
    · rintro ⟨score, h⟩
      obtain ⟨x, hx, h⟩ := exists_of_bind h
      obtain ⟨y, hy, -⟩ := exists_of_bind h
      exact ⟨⟨x, hx⟩, y, hy⟩
    · rintro ⟨hx, hy⟩
      refine exists_bind hx fun x => exists_bind hy fun y => ?_
      split
      · exact ⟨_, rfl⟩
      · exact ⟨_, rfl⟩
  · rw [if_pos hlength]
    exact iff_of_true ⟨_, rfl⟩ fun h => absurd h hlength

theorem cosine_eq_error {e : ArithmeticError} (h : cosine a b = .error e) :
    e = .integerTooLarge := by
  unfold cosine at h
  split at h
  · cases h
  · rcases bind_eq_error_iff.1 h with hx | ⟨x, -, h⟩
    · exact coordinates_eq_error hx
    · rcases bind_eq_error_iff.1 h with hy | ⟨y, -, h⟩
      · exact coordinates_eq_error hy
      · split at h <;> cases h

end

/-- The score of a node; none without an embedding that can be compared with the vector. -/
def score? (vector : List Number) (node : Node) : Option Double :=
  node.embedding.bind fun embedding => (cosine vector embedding).toOption

/-- The node with its own score. -/
def scored? (vector : List Number) (node : Node) : Option Scored :=
  (score? vector node).map fun score => ⟨node, score⟩

theorem scoreAll_cons_of_none {node : Node} (h : node.embedding = none) (rest : List Node) :
    scoreAll vector (node :: rest) = scoreAll vector rest := by
  rw [scoreAll, h]

theorem scoreAll_cons_of_some {node : Node} {embedding : List Number}
    (h : node.embedding = some embedding) (rest : List Node) :
    scoreAll vector (node :: rest) = do
      let score ← cosine vector embedding
      return ⟨node, score⟩ :: (← scoreAll vector rest) := by
  rw [scoreAll, h]

variable [LawfulVectorArithmetic]

theorem scoreAll_of_comparesAll (h : ComparesAll vector nodes) :
    scoreAll vector nodes = .ok (nodes.filterMap (scored? vector)) := by
  induction nodes with
  | nil => rfl
  | cons node rest ih =>
      obtain ⟨hnode, hrest⟩ := List.forall_mem_cons.1 h
      cases hembedding : node.embedding with
      | none =>
          have hscored : scored? vector node = none := by
            rw [scored?, score?, hembedding]
            rfl
          rw [scoreAll_cons_of_none hembedding, ih hrest, List.filterMap_cons_none hscored]
      | some embedding =>
          obtain ⟨score, hscore⟩ := cosine_isOk_iff.2 (hnode embedding hembedding)
          have hscored : scored? vector node = some ⟨node, score⟩ := by
            rw [scored?, score?, hembedding, Option.bind_some, hscore]
            rfl
          rw [scoreAll_cons_of_some hembedding, hscore, ih hrest, List.filterMap_cons_some hscored]
          rfl

theorem scoreAll_of_not_comparesAll (h : ¬ ComparesAll vector nodes) :
    scoreAll vector nodes = .error .integerTooLarge := by
  induction nodes with
  | nil => exact absurd (fun node hnode => absurd hnode List.not_mem_nil) h
  | cons node rest ih =>
      have hcons (hnode : ∀ embedding, node.embedding = some embedding →
          Comparable vector embedding) : ¬ ComparesAll vector rest :=
        fun hrest => h (List.forall_mem_cons.2 ⟨hnode, hrest⟩)
      cases hembedding : node.embedding with
      | none =>
          rw [scoreAll_cons_of_none hembedding]
          exact ih (hcons fun _ hsome => nomatch hembedding.symm.trans hsome)
      | some embedding =>
          rw [scoreAll_cons_of_some hembedding]
          cases hscore : cosine vector embedding with
          | error e =>
              rw [cosine_eq_error hscore]
              rfl
          | ok score =>
              have hrest : ¬ ComparesAll vector rest := by
                refine hcons fun other hother => ?_
                obtain rfl := Option.some.inj (hembedding.symm.trans hother)
                exact cosine_isOk_iff.1 ⟨score, hscore⟩
              rw [ih hrest]
              rfl

end Similarity

end PropertyGraph
