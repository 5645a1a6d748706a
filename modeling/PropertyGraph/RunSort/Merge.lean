import PropertyGraph.RunSort.Search

/-!
Merging two runs that follow each other. A merge goes forward or backward, so that the shorter run is
the one that is put aside. It takes one element after another, until one run has won so often in
turn that it pays to gallop: to look how many elements of a run may be taken at once.
-/

namespace PropertyGraph

namespace RunSort

/-- From which ends a merge takes elements. A merge that goes backward is given its runs reversed. -/
inductive Direction where
  | forward
  | backward
  deriving DecidableEq

/-- How many elements at the start of a run pass a test. -/
def leading : Direction → (α → Bool) → List α → Nat
  | .forward, p, run => boundary p run 0
  | .backward, p, run => run.length - boundary (fun x => !p x) run.reverse (run.length - 1)

/-- What a merge is about to do. -/
inductive Phase where
  | start
  /-- Take one element, of a run that has won so often in turn or of the other one. -/
  | alternate (fromRight : Bool) (wins : Nat)
  | gallopLeft
  | takeRight (long : Bool)
  | gallopRight (long : Bool)
  | takeLeft (long : Bool)

/-- The elements that a merge takes, and how it goes on. -/
structure Move where
  fromRight : Bool
  count : Nat
  next : Phase
  patience : Nat

/-- A gallop of so many elements is a long one. -/
def longGallop : Nat := 7

/-- The next move of a merge, where `x` and `y` are the first elements of the runs. A run that has won
`patience` times in turn starts a gallop; galloping goes on while one of the last two gallops was
long, and with less patience, and more patience is asked for when it ends. -/
def Phase.move (d : Direction) (rightFirst : α → α → Bool) (patience : Nat) (left right : List α)
    (x y : α) : Phase → Move
  | start => ⟨d = .forward, 1, alternate false 0, patience⟩
  | alternate side wins =>
    let fromRight := rightFirst y x
    let wins := if fromRight = side then wins + 1 else 1
    ⟨fromRight, 1, if patience ≤ wins then gallopLeft else alternate fromRight wins, patience⟩
  | gallopLeft =>
    let count := leading d (fun x => !rightFirst y x) left
    ⟨false, count, takeRight (longGallop ≤ count), patience⟩
  | takeRight long => ⟨true, 1, gallopRight long, patience⟩
  | gallopRight long =>
    let count := leading d (fun y => rightFirst y x) right
    ⟨true, count, takeLeft (long || longGallop ≤ count), patience⟩
  | takeLeft true => ⟨false, 1, gallopLeft, if 1 < patience then patience - 1 else patience⟩
  | takeLeft false => ⟨false, 1, alternate false 0, patience + 1⟩

namespace Move

def taken (m : Move) (left right : List α) : List α :=
  if m.fromRight then right.take m.count else left.take m.count

/-- What the move leaves of the left run. -/
def left (m : Move) (run : List α) : List α := if m.fromRight then run else run.drop m.count

/-- What the move leaves of the right run. -/
def right (m : Move) (run : List α) : List α := if m.fromRight then run.drop m.count else run

end Move

/-- The end of a merge of which one run is used up, or all but the last element of the run that is
known to have the last one. -/
def finish? : Direction → List α → List α → Option (List α)
  | .forward, left, [] => some left
  | .forward, [], right => some right
  | .forward, [x], right => some (right ++ [x])
  | .backward, [], right => some right
  | .backward, left, [] => some left
  | .backward, left, [y] => some (left ++ [y])
  | _, _, _ => none

/-- A gallop may take nothing, and is followed by a move that takes an element. -/
def Phase.rank : Phase → Nat
  | gallopLeft | gallopRight _ => 1
  | _ => 0

theorem Phase.move_progress (d : Direction) (rightFirst : α → α → Bool) (patience : Nat)
    (left right : List α) (x y : α) (phase : Phase) :
    let m := phase.move d rightFirst patience left right x y
    m.count = 1 ∨ m.next.rank < phase.rank := by
  match phase with
  | start | alternate .. | takeRight _ | takeLeft true | takeLeft false => exact .inl rfl
  | gallopLeft | gallopRight _ => exact .inr Nat.zero_lt_one

/-- A move takes an element, or is followed by one that does. -/
theorem Phase.move_decreases (d : Direction) (rightFirst : α → α → Bool) (patience : Nat)
    (x y : α) (left right : List α) (phase : Phase) :
    let m := phase.move d rightFirst patience (x :: left) (y :: right) x y
    Prod.Lex (· < ·) (· < ·)
      ((m.left (x :: left)).length + (m.right (y :: right)).length, m.next.rank)
      ((x :: left).length + (y :: right).length, phase.rank) := by
  intro m
  have progress : m.count = 1 ∨ m.next.rank < phase.rank :=
    phase.move_progress d rightFirst patience (x :: left) (y :: right) x y
  rw [Prod.lex_def]
  simp only [Move.left, Move.right]
  split <;> simp only [List.length_drop, List.length_cons] <;> omega

/-- Merge two runs, where `rightFirst` says which elements of the right run are taken before which of
the left one. The patience that is left is kept for the next merge. -/
def merge (d : Direction) (rightFirst : α → α → Bool) (phase : Phase) (patience : Nat) :
    List α → List α → List α × Nat
  | x :: left, y :: right =>
    let m := phase.move d rightFirst patience (x :: left) (y :: right) x y
    let taken := m.taken (x :: left) (y :: right)
    match finish? d (m.left (x :: left)) (m.right (y :: right)) with
    | some rest => (taken ++ rest, patience)
    | none =>
      let (rest, patience) :=
        merge d rightFirst m.next m.patience (m.left (x :: left)) (m.right (y :: right))
      (taken ++ rest, patience)
  | left, right => (left ++ right, patience)
termination_by left right => (left.length + right.length, phase.rank)
decreasing_by exact phase.move_decreases d rightFirst patience x y left right

/-- Merge two runs of which each is to be taken from, the shorter one being put aside. -/
def mergeMiddle (less : α → α → Bool) (patience : Nat) (left right : List α) : List α × Nat :=
  if left.length ≤ right.length then merge .forward less .start patience left right
  else
    let (reversed, patience) :=
      merge .backward (fun y x => !less y x) .start patience left.reverse right.reverse
    (reversed.reverse, patience)

/-- Merge two runs that follow each other. What the left one has before the first element of the right
one stays, and what the right one has behind the last element of the left one. -/
def mergeRuns (less : α → α → Bool) (patience : Nat) (left right : List α) : List α × Nat :=
  match right with
  | [] => (left, patience)
  | y :: rest =>
    let start := boundary (fun x => !less y x) left 0
    match (left.drop start).getLast? with
    | none => (left ++ y :: rest, patience)
    | some x =>
      let stop := boundary (fun y => less y x) (y :: rest) rest.length
      if stop = 0 then (left ++ y :: rest, patience)
      else
        let (middle, patience) :=
          mergeMiddle less patience (left.drop start) ((y :: rest).take stop)
        (left.take start ++ middle ++ (y :: rest).drop stop, patience)

end RunSort

end PropertyGraph
