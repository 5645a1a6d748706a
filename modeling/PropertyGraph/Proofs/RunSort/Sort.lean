import PropertyGraph.Proofs.RunSort.MergeOrder
import PropertyGraph.RunSort.Basic

/-!
The whole sort. It keeps the elements, and puts them in order if the comparison comes from an order:
what holds of the runs that are held back, and goes on holding whichever two neighbours are merged,
holds of the sorted list. That the sort is stable follows from what it asks: an element is only ever
asked whether it is less than one that stands before it, so the comparison may as well tell equal
elements apart by their places.
-/

namespace PropertyGraph.RunSort

/-- Of the runs that are held back, the last one first, this goes on holding when two neighbours are
merged. -/
def Kept (less : α → α → Bool) (I : List (List α) → Prop) : Prop :=
  ∀ patience above last before below, I (above ++ last :: before :: below) →
    I (above ++ (mergeRuns less patience before last).1 :: below)

section

variable {α : Type u} {less : α → α → Bool} {I : List (List α) → Prop} (hI : Kept less I)
  {n : Nat} {above held rest : List (List α)} {top : List α} {below : List (Pending α)}

include hI

theorem Kept.collapse (depth patience : Nat) (h : I (above ++ top :: below.map Pending.run)) :
    let c := collapse less depth patience top below
    I (above ++ c.1 :: c.2.1.map Pending.run) := by
  induction below generalizing top patience with
  | nil => exact h
  | cons next below ih =>
      rw [RunSort.collapse]
      split
      · exact ih _ (hI patience above top next.run _ h)
      · exact h

theorem Kept.mergeHeld (patience : Nat) (hne : held ≠ []) (h : I held) :
    I [mergeHeld less patience held] := by
  fun_induction RunSort.mergeHeld less patience held with
  | case1 => exact absurd rfl hne
  | case2 patience run => exact h
  | case3 patience last before => exact hI patience [] last before [] h
  | case4 patience last before first below hlt merged patience' hmerge ih =>
      have hnext := hI patience [last] before first below h
      rw [hmerge] at hnext
      exact ih (List.cons_ne_nil _ _) hnext
  | case5 patience last before first below hge merged patience' hmerge ih =>
      have hnext := hI patience [] last before (first :: below) h
      rw [hmerge] at hnext
      exact ih (List.cons_ne_nil _ _) hnext

theorem Kept.mergeAll (patience : Nat) (h : I (rest.reverse ++ top :: below.map Pending.run)) :
    I [mergeAll less n patience below top rest] := by
  induction rest generalizing patience below top with
  | nil => exact hI.mergeHeld patience (List.cons_ne_nil _ _) h
  | cons next rest ih =>
      refine ih _ ?_
      rw [List.append_cons]
      rw [List.reverse_cons] at h
      exact hI.collapse _ patience h

end

/-- What is kept of the runs of a list, holds of the sorted list. -/
theorem Kept.sort {α : Type u} {less : α → α → Bool} {I : List (List α) → Prop}
    (hI : Kept less I) {elements : List α} (hne : elements ≠ [])
    (h : I (runs less (leastRun elements.length) elements).reverse) : I [sort less elements] := by
  unfold RunSort.sort
  split
  · next hnone =>
    have hperm := perm_flatten_runs less (leastRun elements.length) elements
    rw [hnone] at hperm
    exact absurd hperm.symm.eq_nil hne
  · next run rest hruns =>
    rw [hruns, List.reverse_cons] at h
    exact hI.mergeAll _ h

theorem sort_nil {α : Type u} (less : α → α → Bool) : sort less [] = [] := by
  rw [sort, runs, if_pos rfl]

/-- Sorting keeps the elements. -/
theorem sort_perm {α : Type u} (less : α → α → Bool) (elements : List α) :
    (sort less elements).Perm elements := by
  have hI : Kept less fun stack => stack.flatten.Perm elements := by
    intro patience above last before below h
    refine .trans ?_ h
    have hmerged := perm_mergeRuns less patience before last
    simp only [List.flatten_append, List.flatten_cons]
    refine (hmerged.append_right _).append_left _ |>.trans ?_
    rw [← List.append_assoc last]
    exact (List.perm_append_comm.append_right _).append_left _
  by_cases hne : elements = []
  · rw [hne, sort_nil]
  · have hperm := perm_flatten_runs less (leastRun elements.length) elements
    have hsort := hI.sort hne ((List.reverse_perm _).flatten.trans hperm)
    rwa [List.flatten_singleton] at hsort

section

variable {α : Type u} {less : α → α → Bool} {le : α → α → Prop} {S : α → Prop}

/-- With a comparison that orders its elements a list is put in order. -/
theorem pairwise_sort (h : Orders less le S) {elements : List α} (hS : ∀ a ∈ elements, S a) :
    (sort less elements).Pairwise le := by
  have hI : Kept less fun stack => ∀ run ∈ stack, (∀ a ∈ run, S a) ∧ run.Pairwise le := by
    intro patience above last before below h'
    rw [List.forall_mem_append, List.forall_mem_cons, List.forall_mem_cons] at h'
    obtain ⟨habove, ⟨hSlast, hlast⟩, ⟨hSbefore, hbefore⟩, hbelow⟩ := h'
    have hSall := List.forall_mem_append.2 ⟨hSbefore, hSlast⟩
    refine List.forall_mem_append.2 ⟨habove, List.forall_mem_cons.2 ⟨⟨fun a ha => ?_, ?_⟩, hbelow⟩⟩
    · exact hSall a ((perm_mergeRuns less patience before last).mem_iff.1 ha)
    · exact pairwise_mergeRuns h hSall hbefore hlast
  by_cases hne : elements = []
  · rw [hne, sort_nil]
    exact .nil
  · refine (hI.sort hne (fun run hrun => ?_) _ List.mem_cons_self).2
    rw [List.mem_reverse] at hrun
    refine ⟨fun a ha => hS a ?_, pairwise_of_mem_runs h hS _ run hrun⟩
    exact (perm_flatten_runs less _ elements).mem_iff.1 (List.mem_flatten_of_mem hrun ha)

end

/-- Elements of two runs stand in a relation, the one of the earlier run first. -/
def Apart (R : α → α → Prop) (stack : List (List α)) : Prop :=
  stack.Pairwise fun after before => ∀ y ∈ before, ∀ x ∈ after, R y x

theorem kept_apart {α : Type u} (less : α → α → Bool) (R : α → α → Prop) :
    Kept less (Apart R) := by
  intro patience above last before below h
  unfold Apart at h ⊢
  have hmem (a : α) : a ∈ (mergeRuns less patience before last).1 ↔ a ∈ before ∨ a ∈ last := by
    rw [(perm_mergeRuns less patience before last).mem_iff, List.mem_append]
  simp only [List.pairwise_append, List.pairwise_cons, List.mem_cons, forall_eq_or_imp] at h ⊢
  simp only [hmem]
  grind

section

variable {α : Type u} {β : Type v} {less : α → α → Bool} {less' : β → β → Bool} {f : β → α}

/-- A run that is held back, with its elements replaced. -/
def Pending.map (f : β → α) (held : Pending β) : Pending α := ⟨held.run.map f, held.depth⟩

theorem map_run_map (f : β → α) (below : List (Pending β)) :
    (below.map (Pending.map f)).map Pending.run = (below.map Pending.run).map (List.map f) := by
  simp [Pending.map]

theorem Apart.agrees (above : List (List β)) {below : List (List β)} {last before : List β}
    (h : Apart (Agrees less f less') (above ++ last :: before :: below)) :
    ∀ y ∈ before, ∀ x ∈ last, Agrees less f less' y x := by
  have hcons := (List.pairwise_append.1 h).2.1
  exact (List.pairwise_cons.1 hcons).1 before List.mem_cons_self

theorem collapse_map {below : List (Pending β)} {top : List β}
    (h : Apart (Agrees less f less') (top :: below.map Pending.run)) (depth patience : Nat) :
    collapse less depth patience (top.map f) (below.map (Pending.map f)) =
      ((collapse less' depth patience top below).1.map f,
        (collapse less' depth patience top below).2.1.map (Pending.map f),
        (collapse less' depth patience top below).2.2) := by
  induction below generalizing top patience with
  | nil => rfl
  | cons next below ih =>
      rw [List.map_cons, collapse, collapse]
      simp only [Pending.map, mergeRuns_map (Apart.agrees [] h)]
      split
      · exact ih (kept_apart less' _ patience [] top next.run _ h) _
      · rfl

theorem mergeHeld_map {held : List (List β)} (h : Apart (Agrees less f less') held)
    (patience : Nat) :
    mergeHeld less patience (held.map (List.map f)) = (mergeHeld less' patience held).map f := by
  fun_induction mergeHeld less' patience held with
  | case1 => rw [List.map_nil, mergeHeld, List.map_nil]
  | case2 patience run => rw [List.map_singleton, mergeHeld]
  | case3 patience last before =>
      simp only [List.map_cons, List.map_nil, mergeHeld,
        mergeRuns_map (Apart.agrees [] h)]
  | case4 patience last before first below hlt merged patience' hmerge ih =>
      have hnext := kept_apart less' _ patience [last] before first below h
      rw [hmerge] at hnext
      have hmap := mergeRuns_map (Apart.agrees [last] h) patience
      rw [hmerge] at hmap
      rw [← ih hnext]
      simp only [List.map_cons, mergeHeld, List.length_map, if_pos hlt, hmap]
  | case5 patience last before first below hge merged patience' hmerge ih =>
      have hnext := kept_apart less' _ patience [] last before (first :: below) h
      rw [hmerge] at hnext
      have hmap := mergeRuns_map (Apart.agrees [] h) patience
      rw [hmerge] at hmap
      rw [← ih hnext]
      simp only [List.map_cons, mergeHeld, List.length_map, if_neg hge, hmap]

theorem mergeAll_map {n patience : Nat} {below : List (Pending β)} {top : List β}
    {rest : List (List β)}
    (h : Apart (Agrees less f less') (rest.reverse ++ top :: below.map Pending.run)) :
    mergeAll less n patience (below.map (Pending.map f)) (top.map f) (rest.map (List.map f)) =
      (mergeAll less' n patience below top rest).map f := by
  induction rest generalizing patience below top with
  | nil =>
      rw [List.map_nil, mergeAll, mergeAll, map_run_map, ← List.map_cons]
      exact mergeHeld_map h patience
  | cons next rest ih =>
      have htop : Apart (Agrees less f less') (top :: below.map Pending.run) :=
        (List.pairwise_append.1 h).2.1
      rw [List.reverse_cons] at h
      rw [List.map_cons, mergeAll, mergeAll]
      simp only [List.foldr_map, Pending.map, List.length_map, collapse_map htop]
      generalize mergeDepth n _ _ = depth
      have hnext := (kept_apart less' _).collapse depth patience h
      generalize collapse less' depth patience top below = c at hnext
      show mergeAll less n c.2.2 ((⟨c.1, depth⟩ :: c.2.1).map (Pending.map f)) (next.map f) _ = _
      refine ih ?_
      rw [List.map_cons, List.append_cons]
      exact hnext

/-- An element is only ever compared with those that stand before it, so that two comparisons that
agree there sort alike, of the elements or of what a function makes of them. -/
theorem sort_map {elements : List β} (h : elements.Pairwise (Agrees less f less')) :
    sort less (elements.map f) = (sort less' elements).map f := by
  have hapart : Apart (Agrees less f less')
      (runs less' (leastRun elements.length) elements).reverse :=
    List.pairwise_reverse.2 (pairwise_runs h)
  rw [sort, sort, List.length_map, runs_map h]
  cases hruns : runs less' (leastRun elements.length) elements with
  | nil => rfl
  | cons run rest =>
      rw [hruns, List.reverse_cons] at hapart
      show mergeAll less _ _ (([] : List (Pending β)).map (Pending.map f)) _ _ = _
      exact mergeAll_map hapart

end

section

variable {α : Type u} {less : α → α → Bool} {le : α → α → Prop} {S : α → Prop}

/-- The elements of a list with their places are in the order of these. -/
theorem pairwise_zipIdx (elements : List α) :
    elements.zipIdx.Pairwise fun p q => p.2 < q.2 := by
  rw [List.pairwise_iff_getElem]
  intro i j hi hj hij
  simpa using hij

/-- A list is sorted with a comparison that orders its elements: the result is in order, and elements
that are tied are in it as they were. -/
theorem sort_spec (h : Orders less le S) {elements : List α} (hS : ∀ a ∈ elements, S a) :
    (sort less elements).Pairwise le ∧ ∀ tied, Ties le S tied →
      (sort less elements).filter tied = elements.filter tied := by
  refine ⟨pairwise_sort h hS, fun tied htied => ?_⟩
  let less' (p q : α × Nat) : Bool := less p.1 q.1 || !less q.1 p.1 && decide (p.2 < q.2)
  have hagrees : elements.zipIdx.Pairwise (Agrees less Prod.fst less') :=
    (pairwise_zipIdx elements).imp fun {p q} hpq => by
      simp [Agrees, less', Nat.not_lt.2 (Nat.le_of_lt hpq)]
  have hsort : sort less elements = (sort less' elements.zipIdx).map Prod.fst := by
    rw [← sort_map hagrees, List.zipIdx_map_fst]
  have hS' : ∀ p ∈ elements.zipIdx, S p.1 := fun p hp => hS p.1 (List.fst_mem_of_mem_zipIdx hp)
  have hperm := (sort_perm less' elements.zipIdx).filter (tied ∘ Prod.fst)
  -- What is tied is in the order of the places, before the sort and after it.
  have hafter : ((sort less' elements.zipIdx).filter (tied ∘ Prod.fst)).Pairwise
      fun p q => p.2 ≤ q.2 := by
    refine ((pairwise_sort h.byPlace hS').filter _).imp_of_mem fun {p q} hp hq hpq => hpq.2 ?_
    obtain ⟨hp, hptied⟩ := List.mem_filter.1 (hperm.mem_iff.1 hp)
    obtain ⟨hq, hqtied⟩ := List.mem_filter.1 (hperm.mem_iff.1 hq)
    exact htied q.1 p.1 (hS' q hq) (hS' p hp) hqtied hptied
  have hbefore : (elements.zipIdx.filter (tied ∘ Prod.fst)).Pairwise fun p q => p.2 ≤ q.2 :=
    ((pairwise_zipIdx elements).filter _).imp Nat.le_of_lt
  have hplaces : (sort less' elements.zipIdx).filter (tied ∘ Prod.fst) =
      elements.zipIdx.filter (tied ∘ Prod.fst) := by
    refine hperm.eq_of_pairwise (fun p q hp hq hpq hqp => ?_) hafter hbefore
    have hsame := Nat.le_antisymm hpq hqp
    have hp := List.mem_zipIdx_iff_getElem?.1 (List.mem_filter.1 (hperm.mem_iff.1 hp)).1
    have hq := List.mem_zipIdx_iff_getElem?.1 (List.mem_filter.1 hq).1
    exact Prod.ext (Option.some.inj (hp.symm.trans (hsame ▸ hq))) hsame
  calc (sort less elements).filter tied
      = ((sort less' elements.zipIdx).filter (tied ∘ Prod.fst)).map Prod.fst := by
        rw [hsort, List.filter_map]
    _ = (elements.zipIdx.filter (tied ∘ Prod.fst)).map Prod.fst := by rw [hplaces]
    _ = elements.filter tied := by rw [← List.filter_map, List.zipIdx_map_fst]

end

/-- A list in which no element is less than the one before it is left as it is. -/
theorem sort_of_isChain {α : Type u} {less : α → α → Bool} {elements : List α}
    (h : elements.IsChain fun y x => less x y = false) : sort less elements = elements := by
  by_cases hne : elements = []
  · rw [hne, sort_nil]
  · have hruns (least : Nat) : runs less least elements = [elements] := by
      rw [runs, if_neg hne]
      simp only [nextRun, firstRun_of_isChain h, List.take_nil, List.foldl_nil, List.drop_nil]
      rw [runs, if_pos rfl]
    rw [sort, hruns]
    simp only [mergeAll, List.map_nil, mergeHeld]

end PropertyGraph.RunSort
