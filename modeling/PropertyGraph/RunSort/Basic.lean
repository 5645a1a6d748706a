import PropertyGraph.RunSort.Merge
import PropertyGraph.RunSort.Run

/-!
A merge sort of runs. The runs of a list are found one after another; each is held back until the runs
before it lie deep enough in a balanced tree of merges. With a comparison that orders all elements the
sort is stable; with any other, the result still is a permutation, and what is compared with what
decides which.
-/

namespace PropertyGraph

namespace RunSort

/-- A run that is held back, and the depth of the merge with the run behind it. -/
structure Pending (α : Type u) where
  run : List α
  depth : Nat

/-- The number of binary digits of `a / n` and `b / n` up to the first that differs. -/
def mergeDepth (n a b : Nat) : Nat :=
  if a < b ∧ b < 2 * n then
    if n ≤ a then mergeDepth n (2 * (a - n)) (2 * (b - n)) + 1
    else if n ≤ b then 1
    else mergeDepth n (2 * a) (2 * b) + 1
  else 1
termination_by 2 * n - (b - a)
decreasing_by all_goals omega

/-- Merge a run with those that are held back for deeper merges than one of a depth. -/
def collapse (less : α → α → Bool) (depth patience : Nat) (top : List α) :
    List (Pending α) → List α × List (Pending α) × Nat
  | [] => (top, [], patience)
  | held :: below =>
    if depth < held.depth then
      let (merged, patience) := mergeRuns less patience held.run top
      collapse less depth patience merged below
    else (top, held :: below, patience)

/-- Merge all runs, the last of which comes first; the run before the last two goes first if it is
shorter than the last. -/
def mergeHeld (less : α → α → Bool) (patience : Nat) : List (List α) → List α
  | [] => []
  | [run] => run
  | [last, before] => (mergeRuns less patience before last).1
  | last :: before :: first :: below =>
    if first.length < last.length then
      let (merged, patience) := mergeRuns less patience first before
      mergeHeld less patience (last :: merged :: below)
    else
      let (merged, patience) := mergeRuns less patience before last
      mergeHeld less patience (merged :: first :: below)
termination_by held => held.length

/-- Hold back the runs of a list of length `n` and merge them. The depth of a merge is that at which
the middles of its runs, at `a / 2` and `b / 2`, fall apart. -/
def mergeAll (less : α → α → Bool) (n patience : Nat) (below : List (Pending α)) (top : List α) :
    List (List α) → List α
  | [] => mergeHeld less patience (top :: below.map Pending.run)
  | next :: rest =>
    let a := 2 * below.foldr (fun held length => held.run.length + length) 0 + top.length
    let b := a + top.length + next.length
    let depth := mergeDepth n a b
    let (top, below, patience) := collapse less depth patience top below
    mergeAll less n patience (⟨top, depth⟩ :: below) next rest

def sort (less : α → α → Bool) (elements : List α) : List α :=
  match runs less (leastRun elements.length) elements with
  | [] => []
  | run :: rest => mergeAll less elements.length longGallop [] run rest

end RunSort

end PropertyGraph
