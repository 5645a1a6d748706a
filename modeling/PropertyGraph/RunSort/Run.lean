import PropertyGraph.RunSort.Search

/-!
The runs of a list. A run is in order already, or in strictly descending order and then reversed; one
that is too short is filled up with the elements after it, each of which goes where a binary search
among those before it leads.
-/

namespace PropertyGraph

namespace RunSort

/-- The longest start of the list, after `previous`, in which no neighbour breaks the run; a run is
broken by a pair whose order differs from `descending`. -/
def runAfter (less : α → α → Bool) (descending : Bool) (previous : α) : List α → List α × List α
  | [] => ([], [])
  | x :: rest =>
    if less x previous = descending then
      let (run, rest) := runAfter less descending x rest
      (x :: run, rest)
    else ([], x :: rest)

/-- The first run in its ascending order, and the elements after it. -/
def firstRun (less : α → α → Bool) : List α → List α × List α
  | [] => ([], [])
  | [x] => ([x], [])
  | x :: y :: rest =>
    let descending := less y x
    let (run, rest) := runAfter less descending y rest
    if descending then ((x :: y :: run).reverse, rest) else (x :: y :: run, rest)

/-- Put an element into its place. -/
def insert (less : α → α → Bool) (sorted : List α) (x : α) : List α :=
  let place := bisect (fun i => sorted[i]?.any fun y => !less x y) 0 sorted.length
  sorted.take place ++ x :: sorted.drop place

/-- The least length of a run: that of the list, halved until it is less than 64, and one more if
something was left over. -/
def leastRun (n : Nat) (remainder : Nat := 0) : Nat :=
  if n < 64 then n + remainder else leastRun (n / 2) (if n % 2 = 0 then remainder else 1)
termination_by n

/-- The first run, filled up to the least length, and the elements after it. -/
def nextRun (less : α → α → Bool) (least : Nat) (elements : List α) : List α × List α :=
  let (run, rest) := firstRun less elements
  let missing := least - run.length
  ((rest.take missing).foldl (insert less) run, rest.drop missing)

theorem insert_perm (less : α → α → Bool) (sorted : List α) (x : α) :
    (insert less sorted x).Perm (x :: sorted) := by
  unfold insert
  exact List.perm_middle.trans (by rw [List.take_append_drop])

theorem foldl_insert_perm (less : α → α → Bool) (sorted elements : List α) :
    (elements.foldl (insert less) sorted).Perm (sorted ++ elements) := by
  induction elements generalizing sorted with
  | nil => simp
  | cons x rest ih =>
    exact (ih _).trans (((insert_perm less sorted x).append_right rest).trans
      List.perm_middle.symm)

theorem runAfter_append (less : α → α → Bool) (descending : Bool) (previous : α)
    (elements : List α) :
    (runAfter less descending previous elements).1 ++
      (runAfter less descending previous elements).2 = elements := by
  induction elements generalizing previous with
  | nil => rfl
  | cons x rest ih =>
    rw [runAfter]
    split
    · simp [ih]
    · rfl

/-- A list is its first run, reversed or not, and the elements after it. -/
theorem firstRun_perm (less : α → α → Bool) (elements : List α) :
    ∃ front, (firstRun less elements).1.Perm front ∧
      front ++ (firstRun less elements).2 = elements ∧ (elements ≠ [] → front ≠ []) := by
  match elements with
  | [] => exact ⟨[], .nil, rfl, fun h => h⟩
  | [x] => exact ⟨[x], .refl _, rfl, fun _ => List.cons_ne_nil _ _⟩
  | x :: y :: rest =>
    refine ⟨x :: y :: (runAfter less (less y x) y rest).1, ?_, ?_, fun _ => List.cons_ne_nil _ _⟩
    · simp only [firstRun]
      split
      · exact List.reverse_perm _
      · exact .refl _
    · have whole := runAfter_append less (less y x) y rest
      simp only [firstRun]
      split <;> simp [whole]

/-- A list begins with the elements of its next run, in some order. -/
theorem nextRun_perm (less : α → α → Bool) (least : Nat) (elements : List α) :
    ∃ front, (nextRun less least elements).1.Perm front ∧
      front ++ (nextRun less least elements).2 = elements ∧ (elements ≠ [] → front ≠ []) := by
  obtain ⟨front, perm, whole, nonempty⟩ := firstRun_perm less elements
  let missing := least - (firstRun less elements).1.length
  refine ⟨front ++ (firstRun less elements).2.take missing, ?_, ?_, fun h => ?_⟩
  · exact (foldl_insert_perm less _ _).trans (perm.append_right _)
  · rw [List.append_assoc]
    exact (congrArg (front ++ ·) (List.take_append_drop missing _)).trans whole
  · exact List.append_ne_nil_of_left_ne_nil (nonempty h) _

theorem length_nextRun_lt (less : α → α → Bool) (least : Nat) {elements : List α}
    (h : elements ≠ []) : (nextRun less least elements).2.length < elements.length := by
  obtain ⟨front, -, whole, nonempty⟩ := nextRun_perm less least elements
  have := List.length_pos_iff.2 (nonempty h)
  have := congrArg List.length whole
  simp only [List.length_append] at this
  omega

/-- The runs of a list, one after another. -/
def runs (less : α → α → Bool) (least : Nat) (elements : List α) : List (List α) :=
  if elements = [] then []
  else
    let next := nextRun less least elements
    next.1 :: runs less least next.2
termination_by elements.length
decreasing_by exact length_nextRun_lt _ _ ‹_›

end RunSort

end PropertyGraph
