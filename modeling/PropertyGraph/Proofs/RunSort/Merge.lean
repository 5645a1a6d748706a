import PropertyGraph.Proofs.RunSort.Run
import PropertyGraph.RunSort.Merge

/-!
Merging two runs. Whatever the comparison says, a merge keeps the elements of both runs, and asks of
elements of the right one only whether they are less than elements of the left one. If the comparison
comes from an order and both runs are in order, so is the merged run: each move takes elements that
may stand before all that are left.
-/

namespace PropertyGraph.RunSort

section

variable {α : Type u} {d : Direction} {left right rest : List α}

theorem perm_move (m : Move) (left right : List α) :
    (m.taken left right ++ (m.left left ++ m.right right)).Perm (left ++ right) := by
  unfold Move.taken Move.left Move.right
  split
  · have hright := (List.take_append_drop m.count right).symm
    conv => rhs; rw [hright]
    rw [← List.append_assoc, ← List.append_assoc]
    exact List.perm_append_comm.append_right _
  · rw [← List.append_assoc, List.take_append_drop]

theorem perm_finish? (h : finish? d left right = some rest) : rest.Perm (left ++ right) := by
  unfold finish? at h
  split at h
  · obtain rfl := Option.some.inj h
    rw [List.append_nil]
  · exact Option.some.inj h ▸ .refl _
  · exact Option.some.inj h ▸ List.perm_append_comm
  · exact Option.some.inj h ▸ .refl _
  · obtain rfl := Option.some.inj h
    rw [List.append_nil]
  · exact Option.some.inj h ▸ .refl _
  · cases h

theorem perm_merge (d : Direction) (rightFirst : α → α → Bool) (phase : Phase) (patience : Nat)
    (left right : List α) :
    (merge d rightFirst phase patience left right).1.Perm (left ++ right) := by
  fun_induction merge d rightFirst phase patience left right with
  | case1 phase patience x left y right m taken rest hfinish =>
      exact ((perm_finish? hfinish).append_left taken).trans (perm_move m _ _)
  | case2 phase patience x left y right m taken hfinish rest patience' hmerge ih =>
      rw [hmerge] at ih
      exact (ih.append_left taken).trans (perm_move m _ _)
  | case3 phase patience left right hne => exact .refl _

theorem perm_mergeMiddle (less : α → α → Bool) (patience : Nat) (left right : List α) :
    (mergeMiddle less patience left right).1.Perm (left ++ right) := by
  unfold mergeMiddle
  split
  · exact perm_merge ..
  · have hperm :=
      perm_merge .backward (fun y x => !less y x) .start patience left.reverse right.reverse
    exact (List.reverse_perm _).trans
      (hperm.trans ((List.reverse_perm left).append (List.reverse_perm right)))

theorem perm_mergeRuns (less : α → α → Bool) (patience : Nat) (left right : List α) :
    (mergeRuns less patience left right).1.Perm (left ++ right) := by
  unfold mergeRuns
  split
  · rw [List.append_nil]
  · next y rest =>
    dsimp only
    split
    · exact .refl _
    · next x hx =>
      split
      · exact .refl _
      · have hmiddle := perm_mergeMiddle less patience
          (left.drop (boundary (fun x => !less y x) left 0))
          ((y :: rest).take (boundary (fun y => less y x) (y :: rest) rest.length))
        refine ((hmiddle.append_left _).append_right _).trans ?_
        rw [← List.append_assoc, List.take_append_drop, List.append_assoc, List.take_append_drop]

end

section

variable {α : Type u} {β : Type v} {f : β → α} {d : Direction} {left right : List β}

theorem leading_congr {p q : α → Bool} {run : List α} (h : ∀ a ∈ run, p a = q a) :
    leading d p run = leading d q run := by
  cases d with
  | forward => exact boundary_congr h 0
  | backward =>
      exact congrArg (run.length - ·)
        (boundary_congr (fun a ha => congrArg (!·) (h a (List.mem_reverse.1 ha))) _)

theorem leading_map (d : Direction) (f : β → α) (p : α → Bool) (run : List β) :
    leading d p (run.map f) = leading d (fun b => p (f b)) run := by
  cases d with
  | forward => exact boundary_map f p run 0
  | backward => simp [leading, ← List.map_reverse, boundary_map]

theorem finish?_map (d : Direction) (f : β → α) (left right : List β) :
    finish? d (left.map f) (right.map f) = (finish? d left right).map (List.map f) := by
  cases d <;> rcases left with _ | ⟨x, _ | ⟨x', left⟩⟩ <;>
    rcases right with _ | ⟨y, _ | ⟨y', right⟩⟩ <;> simp [finish?]

theorem Move.taken_map (m : Move) (f : β → α) (left right : List β) :
    m.taken (left.map f) (right.map f) = (m.taken left right).map f := by
  unfold Move.taken
  split <;> rw [List.map_take]

theorem Move.left_map (m : Move) (f : β → α) (run : List β) :
    m.left (run.map f) = (m.left run).map f := by
  unfold Move.left
  split
  · rfl
  · rw [List.map_drop]

theorem Move.right_map (m : Move) (f : β → α) (run : List β) :
    m.right (run.map f) = (m.right run).map f := by
  unfold Move.right
  split
  · rw [List.map_drop]
  · rfl

theorem Move.mem_of_mem_left {m : Move} {x : β} (h : x ∈ m.left left) : x ∈ left := by
  unfold Move.left at h
  split at h
  · exact h
  · exact List.mem_of_mem_drop h

theorem Move.mem_of_mem_right {m : Move} {y : β} (h : y ∈ m.right right) : y ∈ right := by
  unfold Move.right at h
  split at h
  · exact List.mem_of_mem_drop h
  · exact h

theorem Phase.move_map {rightFirst : α → α → Bool} {rightFirst' : β → β → Bool} {x y : β}
    (h : ∀ x' ∈ x :: left, ∀ y' ∈ y :: right, Agrees rightFirst f rightFirst' x' y')
    (patience : Nat) (phase : Phase) :
    phase.move d rightFirst patience ((x :: left).map f) ((y :: right).map f) (f x) (f y) =
      phase.move d rightFirst' patience (x :: left) (y :: right) x y := by
  have hheads : rightFirst (f y) (f x) = rightFirst' y x :=
    h x List.mem_cons_self y List.mem_cons_self
  cases phase with
  | start => rfl
  | alternate side wins => simp only [Phase.move, hheads]
  | gallopLeft =>
      have hleft : leading d (fun b => !rightFirst (f y) (f b)) (x :: left) =
          leading d (fun b => !rightFirst' y b) (x :: left) :=
        leading_congr fun b hb => congrArg (!·) (h b hb y List.mem_cons_self)
      simp only [Phase.move, leading_map, hleft]
  | takeRight long => rfl
  | gallopRight long =>
      have hright : leading d (fun b => rightFirst (f b) (f x)) (y :: right) =
          leading d (fun b => rightFirst' b x) (y :: right) :=
        leading_congr fun b hb => h x List.mem_cons_self b hb
      simp only [Phase.move, leading_map, hright]
  | takeLeft long => cases long <;> rfl

theorem merge_map {rightFirst : α → α → Bool} {rightFirst' : β → β → Bool}
    (h : ∀ x ∈ left, ∀ y ∈ right, Agrees rightFirst f rightFirst' x y)
    (phase : Phase) (patience : Nat) :
    merge d rightFirst phase patience (left.map f) (right.map f) =
      ((merge d rightFirst' phase patience left right).1.map f,
        (merge d rightFirst' phase patience left right).2) := by
  fun_induction merge d rightFirst' phase patience left right with
  | case1 phase patience x left y right m taken rest hfinish =>
      have hmove : phase.move d rightFirst patience (f x :: left.map f) (f y :: right.map f)
          (f x) (f y) = m := Phase.move_map h patience phase
      rw [List.map_cons, List.map_cons, merge, hmove]
      simp only [← List.map_cons, Move.left_map, Move.right_map, Move.taken_map, finish?_map,
        hfinish, Option.map_some, List.map_append, taken]
  | case2 phase patience x left y right m taken hfinish rest patience' hmerge ih =>
      have hmove : phase.move d rightFirst patience (f x :: left.map f) (f y :: right.map f)
          (f x) (f y) = m := Phase.move_map h patience phase
      have hrest := ih fun x' hx y' hy => h x' (m.mem_of_mem_left hx) y' (m.mem_of_mem_right hy)
      rw [hmerge] at hrest
      rw [List.map_cons, List.map_cons, merge, hmove]
      simp only [← List.map_cons, Move.left_map, Move.right_map, Move.taken_map, finish?_map,
        hfinish, Option.map_none, hrest, List.map_append, taken]
  | case3 phase patience left right hne =>
      rcases left with _ | ⟨x, left⟩
      · simp [merge]
      · rcases right with _ | ⟨y, right⟩
        · simp [merge]
        · exact absurd rfl (hne x left y right rfl)

theorem mergeMiddle_map {less : α → α → Bool} {less' : β → β → Bool}
    (h : ∀ x ∈ left, ∀ y ∈ right, Agrees less f less' x y) (patience : Nat) :
    mergeMiddle less patience (left.map f) (right.map f) =
      ((mergeMiddle less' patience left right).1.map f,
        (mergeMiddle less' patience left right).2) := by
  have hback : ∀ x ∈ left.reverse, ∀ y ∈ right.reverse,
      Agrees (fun y x => !less y x) f (fun y x => !less' y x) x y := fun x hx y hy =>
    congrArg (!·) (h x (List.mem_reverse.1 hx) y (List.mem_reverse.1 hy))
  simp only [mergeMiddle, List.length_map, ← List.map_reverse, merge_map h, merge_map hback]
  split <;> simp

theorem mergeRuns_map {less : α → α → Bool} {less' : β → β → Bool}
    (h : ∀ x ∈ left, ∀ y ∈ right, Agrees less f less' x y) (patience : Nat) :
    mergeRuns less patience (left.map f) (right.map f) =
      ((mergeRuns less' patience left right).1.map f,
        (mergeRuns less' patience left right).2) := by
  match right with
  | [] => rfl
  | y :: rest =>
      have hstart : boundary (fun x => !less (f y) (f x)) left 0 =
          boundary (fun x => !less' y x) left 0 :=
        boundary_congr (fun x hx => congrArg (!·) (h x hx y List.mem_cons_self)) 0
      simp only [mergeRuns, List.map_cons, boundary_map, hstart, ← List.map_drop,
        List.getLast?_map]
      cases hlast : (left.drop (boundary (fun x => !less' y x) left 0)).getLast? with
      | none => simp
      | some x =>
          have hx : x ∈ left := List.mem_of_mem_drop (List.mem_of_getLast? hlast)
          have hstop : boundary (fun y => less (f y) (f x)) (y :: rest) rest.length =
              boundary (fun y => less' y x) (y :: rest) rest.length :=
            boundary_congr (fun y' hy' => h x hx y' hy') _
          simp only [Option.map_some, ← List.map_cons, boundary_map, List.length_map, hstop,
            ← List.map_take, ← List.map_drop]
          rw [mergeMiddle_map fun x' hx' y' hy' => h x' (List.mem_of_mem_drop hx') y'
            (List.mem_of_mem_take hy')]
          split <;> simp

end

end PropertyGraph.RunSort
