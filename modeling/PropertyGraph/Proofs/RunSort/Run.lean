import Mathlib.Data.List.Chain
import PropertyGraph.Proofs.RunSort.Order
import PropertyGraph.Proofs.RunSort.Search
import PropertyGraph.RunSort.Run

/-!
The runs of a list. Together they hold the elements of the list; each of them is in order, if the
comparison comes from an order; and an element is only ever asked whether it is less than one that
stands before it.
-/

namespace PropertyGraph.RunSort

section

variable {α : Type u} {less : α → α → Bool} {least : Nat} {elements : List α}

theorem perm_flatten_runs (less : α → α → Bool) (least : Nat) (elements : List α) :
    (runs less least elements).flatten.Perm elements := by
  fun_induction runs less least elements with
  | case1 => exact .nil
  | case2 elements _ next ih =>
      obtain ⟨front, hperm, hwhole, -⟩ := nextRun_perm less least elements
      exact (hperm.append ih).trans (by rw [hwhole])

/-- What holds of any two elements of a list in their order, holds of two from different runs. -/
theorem pairwise_runs {R : α → α → Prop} (h : elements.Pairwise R) :
    (runs less least elements).Pairwise fun before after => ∀ y ∈ before, ∀ x ∈ after, R y x := by
  fun_induction runs less least elements with
  | case1 => exact .nil
  | case2 elements _ next ih =>
      obtain ⟨front, hperm, hwhole, -⟩ := nextRun_perm less least elements
      rw [← hwhole, List.pairwise_append] at h
      obtain ⟨-, hrest, hbetween⟩ := h
      refine List.pairwise_cons.2 ⟨fun run hrun y hy x hx => ?_, ih hrest⟩
      have hmem : x ∈ (runs less least next.2).flatten := List.mem_flatten_of_mem hrun hx
      exact hbetween y (hperm.mem_iff.1 hy) x ((perm_flatten_runs less least _).mem_iff.1 hmem)

end

section

variable {α : Type u} {β : Type v} {less : α → α → Bool} {less' : β → β → Bool} {f : β → α}
  {elements : List β}

/-- Whether `x` is less than `y` is told by the one comparison as by the other. -/
def Agrees (less : α → α → Bool) (f : β → α) (less' : β → β → Bool) (y x : β) : Prop :=
  less (f x) (f y) = less' x y

theorem insert_map {x : β} {sorted : List β} (h : ∀ y ∈ sorted, Agrees less f less' y x) :
    insert less (sorted.map f) (f x) = (insert less' sorted x).map f := by
  have hany : (fun i : Nat => (sorted.map f)[i]?.any fun y => !less (f x) y) =
      fun i => sorted[i]?.any fun y => !less' x y := by
    simp only [List.getElem?_map, Option.any_map]
    exact any_getElem?_congr fun y hy => congrArg (!·) (h y hy)
  rw [insert, insert, hany, List.length_map]
  simp

theorem foldl_insert_map {sorted : List β} (hrest : elements.Pairwise (Agrees less f less'))
    (hsorted : ∀ y ∈ sorted, ∀ x ∈ elements, Agrees less f less' y x) :
    (elements.map f).foldl (insert less) (sorted.map f) =
      (elements.foldl (insert less') sorted).map f := by
  induction elements generalizing sorted with
  | nil => rfl
  | cons x rest ih =>
      obtain ⟨hx, hrest⟩ := List.pairwise_cons.1 hrest
      rw [List.map_cons, List.foldl_cons, List.foldl_cons,
        insert_map fun y hy => hsorted y hy x List.mem_cons_self]
      refine ih hrest fun y hy z hz => ?_
      rcases List.mem_cons.1 ((insert_perm less' sorted x).mem_iff.1 hy) with rfl | hy
      · exact hx z hz
      · exact hsorted y hy z (List.mem_cons_of_mem x hz)

theorem runAfter_map {previous : β} (h : (previous :: elements).Pairwise (Agrees less f less'))
    (descending : Bool) :
    runAfter less descending (f previous) (elements.map f) =
      ((runAfter less' descending previous elements).1.map f,
        (runAfter less' descending previous elements).2.map f) := by
  induction elements generalizing previous with
  | nil => rfl
  | cons x rest ih =>
      obtain ⟨hprevious, hrest⟩ := List.pairwise_cons.1 h
      have hx : less (f x) (f previous) = less' x previous := hprevious x List.mem_cons_self
      rw [List.map_cons, runAfter, runAfter, hx, ih hrest]
      split <;> rfl

theorem firstRun_map (h : elements.Pairwise (Agrees less f less')) :
    firstRun less (elements.map f) =
      ((firstRun less' elements).1.map f, (firstRun less' elements).2.map f) := by
  match elements with
  | [] => rfl
  | [x] => rfl
  | x :: y :: rest =>
      obtain ⟨hx, hrest⟩ := List.pairwise_cons.1 h
      have hy : less (f y) (f x) = less' y x := hx y List.mem_cons_self
      simp only [List.map_cons, firstRun, hy, runAfter_map hrest]
      split <;> simp

theorem nextRun_map (h : elements.Pairwise (Agrees less f less')) (least : Nat) :
    nextRun less least (elements.map f) =
      ((nextRun less' least elements).1.map f, (nextRun less' least elements).2.map f) := by
  obtain ⟨front, hperm, hwhole, -⟩ := firstRun_perm less' elements
  rw [← hwhole, List.pairwise_append] at h
  obtain ⟨hfront, hrest, hbetween⟩ := h
  simp only [nextRun, firstRun_map (hwhole ▸ List.pairwise_append.2 ⟨hfront, hrest, hbetween⟩),
    List.length_map, ← List.map_take, ← List.map_drop]
  rw [foldl_insert_map (hrest.sublist (List.take_sublist _ _)) fun y hy x hx =>
    hbetween y (hperm.mem_iff.1 hy) x (List.mem_of_mem_take hx)]

/-- Two comparisons that agree on each element and those before it find the same runs. -/
theorem runs_map (h : elements.Pairwise (Agrees less f less')) (least : Nat) :
    runs less least (elements.map f) = (runs less' least elements).map (List.map f) := by
  fun_induction runs less' least elements with
  | case1 => rw [runs, if_pos List.map_nil]; rfl
  | case2 elements hne next ih =>
      obtain ⟨front, -, hwhole, -⟩ := nextRun_perm less' least elements
      have hrest : next.2.Pairwise (Agrees less f less') :=
        (List.pairwise_append.1 (hwhole ▸ h)).2.1
      rw [runs, if_neg (by simpa using hne), nextRun_map h, List.map_cons, ← ih hrest]

end

section

variable {α : Type u} {less : α → α → Bool} {le : α → α → Prop} {S : α → Prop}
  (h : Orders less le S) {elements : List α}

include h

/-- Insertion puts an element behind those that it is not less than and before the others. -/
theorem pairwise_insert {x : α} {sorted : List α} (hx : S x) (hS : ∀ a ∈ sorted, S a)
    (hsorted : sorted.Pairwise le) : (insert less sorted x).Pairwise le := by
  have hmonotone : sorted.Pairwise fun a b => (!less x b) = true → (!less x a) = true := by
    refine hsorted.imp_of_mem fun {a b} ha hb hab hxb => ?_
    rw [Bool.not_eq_true', ← h.le_iff (hS _ ‹_›) hx] at hxb ⊢
    exact h.trans (hS a ha) (hS b hb) hx hab hxb
  obtain ⟨hlow, hhigh⟩ := (separates_bisect (any_getElem?_of_le hmonotone) (Nat.zero_le _)
    (Nat.le_refl _) nofun fun i hi hn => absurd hn (Nat.not_lt.2 hi)).take_drop
  unfold insert
  generalize bisect _ 0 sorted.length = place at hlow hhigh
  rw [← List.take_append_drop place sorted] at hS hsorted
  obtain ⟨hlows, hhighs, hbetween⟩ := List.pairwise_append.1 hsorted
  rw [List.pairwise_append, List.pairwise_cons]
  refine ⟨hlows, ⟨fun b hb => ?_, hhighs⟩, fun a ha b hb => ?_⟩
  · exact h.le_of_less hx (hS b (List.mem_append_right _ hb)) (by simpa using hhigh b hb)
  · rcases List.mem_cons.1 hb with rfl | hb
    · exact (h.le_iff (hS a (List.mem_append_left _ ha)) hx).2 (by simpa using hlow a ha)
    · exact hbetween a ha b hb

theorem pairwise_foldl_insert {sorted : List α} (hS : ∀ a ∈ sorted ++ elements, S a)
    (hsorted : sorted.Pairwise le) : (elements.foldl (insert less) sorted).Pairwise le := by
  induction elements generalizing sorted with
  | nil => exact hsorted
  | cons x rest ih =>
      have hperm : (insert less sorted x ++ rest).Perm (sorted ++ x :: rest) :=
        ((insert_perm less sorted x).append_right rest).trans List.perm_middle.symm
      refine ih (fun a ha => hS a (hperm.mem_iff.1 ha)) (pairwise_insert h ?_ ?_ hsorted)
      · exact hS x (List.mem_append_right _ List.mem_cons_self)
      · exact fun a ha => hS a (List.mem_append_left _ ha)

/-- What the steps of a run are, any two of its elements are to each other. -/
theorem pairwise_runAfter {previous : α} (descending : Bool)
    (hS : ∀ a ∈ previous :: elements, S a) :
    (previous :: (runAfter less descending previous elements).1).Pairwise
      fun a b => less b a = descending := by
  induction elements generalizing previous with
  | nil => exact List.pairwise_singleton _ _
  | cons x rest ih =>
      rw [runAfter]
      split
      · next hx =>
        have hS' : ∀ a ∈ x :: rest, S a := fun a ha => hS a (List.mem_cons_of_mem _ ha)
        have hrun := ih hS'
        refine List.pairwise_cons.2 ⟨fun b hb => ?_, hrun⟩
        rcases List.mem_cons.1 hb with rfl | hb
        · exact hx
        · have hrest : b ∈ rest := by
            rw [← runAfter_append less descending x rest]
            exact List.mem_append_left _ hb
          exact h.less_trans (hS previous List.mem_cons_self) (hS' x List.mem_cons_self)
            (hS' b (List.mem_cons_of_mem _ hrest)) hx ((List.pairwise_cons.1 hrun).1 b hb)
      · exact List.pairwise_singleton _ _

theorem pairwise_firstRun (hS : ∀ a ∈ elements, S a) : (firstRun less elements).1.Pairwise le := by
  match elements with
  | [] => exact .nil
  | [x] => exact List.pairwise_singleton _ _
  | x :: y :: rest =>
      -- The step from the first element to the second is one of the run, whichever way it goes.
      have hpairwise : (x :: y :: (runAfter less (less y x) y rest).1).Pairwise
          fun a b => less b a = less y x := by
        have hx := pairwise_runAfter h (less y x) hS
        rwa [runAfter, if_pos rfl] at hx
      have hS' : ∀ a ∈ x :: y :: (runAfter less (less y x) y rest).1, S a := fun a ha => hS a (by
        rw [← runAfter_append less (less y x) y rest]
        exact List.mem_append_left _ ha)
      simp only [firstRun]
      cases hdescending : less y x with
      | false =>
          rw [hdescending] at hpairwise hS'
          exact hpairwise.imp_of_mem fun ha hb => (h.le_iff (hS' _ ha) (hS' _ hb)).2
      | true =>
          rw [hdescending] at hpairwise hS'
          exact List.pairwise_reverse.2 (hpairwise.imp_of_mem fun ha hb =>
            h.le_of_less (hS' _ hb) (hS' _ ha))

theorem pairwise_nextRun (hS : ∀ a ∈ elements, S a) (least : Nat) :
    (nextRun less least elements).1.Pairwise le := by
  obtain ⟨front, hperm, hwhole, -⟩ := firstRun_perm less elements
  refine pairwise_foldl_insert h (fun a ha => hS a ?_) (pairwise_firstRun h hS)
  rw [← hwhole, List.mem_append, ← hperm.mem_iff]
  exact (List.mem_append.1 ha).imp_right List.mem_of_mem_take

theorem pairwise_of_mem_runs (hS : ∀ a ∈ elements, S a) (least : Nat) :
    ∀ run ∈ runs less least elements, run.Pairwise le := by
  fun_induction runs less least elements with
  | case1 => exact List.forall_mem_nil _
  | case2 elements _ next ih =>
      obtain ⟨front, -, hwhole, -⟩ := nextRun_perm less least elements
      refine List.forall_mem_cons.2 ⟨pairwise_nextRun h hS least, ih fun a ha => hS a ?_⟩
      rw [← hwhole]
      exact List.mem_append_right front ha

end

/-- A run takes all of a list in which no element is less than the one before it. -/
theorem runAfter_of_isChain {α : Type u} {less : α → α → Bool} {previous : α} {elements : List α}
    (h : (previous :: elements).IsChain fun y x => less x y = false) :
    runAfter less false previous elements = (elements, []) := by
  induction elements generalizing previous with
  | nil => rfl
  | cons x rest ih =>
      obtain ⟨hx, hrest⟩ := List.isChain_cons_cons.1 h
      rw [runAfter, if_pos hx, ih hrest]

theorem firstRun_of_isChain {α : Type u} {less : α → α → Bool} {elements : List α}
    (h : elements.IsChain fun y x => less x y = false) : firstRun less elements = (elements, []) := by
  match elements with
  | [] => rfl
  | [x] => rfl
  | x :: y :: rest =>
      obtain ⟨hx, hrest⟩ := List.isChain_cons_cons.1 h
      rw [firstRun, hx, runAfter_of_isChain hrest]
      rfl

end PropertyGraph.RunSort
