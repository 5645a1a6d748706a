import PropertyGraph.Proofs.RunSort.Sort

/-!
The first of the least elements of a list. A scan that gives up the element it holds only for a
smaller one ends with it, and so does a stable sort begin.
-/

namespace PropertyGraph

/-- The element is at most each, and none before it is at most as large. -/
structure FirstLeast (le : α → α → Prop) (elements : List α) (x : α) : Prop where
  least : ∀ y ∈ elements, le x y
  first : ∃ before after, elements = before ++ x :: after ∧ ∀ y ∈ before, ¬ le y x

namespace FirstLeast

variable {α : Type u} {le : α → α → Prop} {elements : List α} {x y : α}

theorem mem (h : FirstLeast le elements x) : x ∈ elements := by
  obtain ⟨before, after, rfl, -⟩ := h.first
  exact List.mem_append_right before List.mem_cons_self

theorem unique (hx : FirstLeast le elements x) (hy : FirstLeast le elements y) : x = y := by
  obtain ⟨before, after, hsplit, hbefore⟩ := hx.first
  obtain ⟨before', after', hsplit', hbefore'⟩ := hy.first
  rcases List.append_eq_append_iff.1 (hsplit.symm.trans hsplit') with
    ⟨between, rfl, hrest⟩ | ⟨between, rfl, hrest⟩
  · cases between with
    | nil => exact (List.cons.inj hrest).1
    | cons z between =>
        obtain ⟨rfl, -⟩ := List.cons.inj hrest
        exact absurd (hx.least y hy.mem) (hbefore' x (by simp))
  · cases between with
    | nil => exact (List.cons.inj hrest).1.symm
    | cons z between =>
        obtain ⟨rfl, -⟩ := List.cons.inj hrest
        exact absurd (hy.least x hx.mem) (hbefore y (by simp))

/-- Elements are compared by what a function makes of them. -/
theorem map {β : Type v} {f : β → α} {elements : List β} {x : β}
    (h : FirstLeast (fun a b => le (f a) (f b)) elements x) :
    FirstLeast le (elements.map f) (f x) := by
  refine ⟨List.forall_mem_map.2 h.least, ?_⟩
  obtain ⟨before, after, rfl, hbefore⟩ := h.first
  exact ⟨before.map f, after.map f, by simp, List.forall_mem_map.2 hbefore⟩

theorem singleton (h : le x x) : FirstLeast le [x] x :=
  ⟨by simpa using h, [], [], rfl, nofun⟩

variable {less : α → α → Bool} {S : α → Prop} (h : RunSort.Orders less le S)

include h

/-- One more element takes the place only if it is less. -/
theorem concat (hx : FirstLeast le elements x) (hS : ∀ a ∈ elements ++ [y], S a) :
    FirstLeast le (elements ++ [y]) (if less y x then y else x) := by
  have hy : S y := hS y (by simp)
  have hxS : S x := hS x (List.mem_append_left _ hx.mem)
  cases hless : less y x with
  | true =>
      -- Whatever is at most the new element would be at most the old one, too.
      have hyx := h.le_of_less hy hxS hless
      have hnot := (h.less_iff hy hxS).1 hless
      refine ⟨fun z hz => ?_, elements, [], rfl, fun z hz hzy => hnot ?_⟩
      · rcases List.mem_append.1 hz with hz | hz
        · exact h.trans hy hxS (hS z (List.mem_append_left _ hz)) hyx (hx.least z hz)
        · rw [List.mem_singleton.1 hz]
          exact (h.total hy hy).elim id id
      · exact h.trans hxS (hS z (List.mem_append_left _ hz)) hy (hx.least z hz) hzy
  | false =>
      obtain ⟨before, after, hsplit, hbefore⟩ := hx.first
      refine ⟨fun z hz => ?_, before, after ++ [y], by simp [hsplit], hbefore⟩
      rcases List.mem_append.1 hz with hz | hz
      · exact hx.least z hz
      · rw [List.mem_singleton.1 hz]
        exact (h.le_iff hxS hy).2 hless

/-- A stable sort puts the first of the least elements first. -/
theorem of_sort {rest : List α} (hS : ∀ a ∈ elements, S a)
    (hsort : RunSort.sort less elements = x :: rest) : FirstLeast le elements x := by
  classical
  obtain ⟨hsorted, hstable⟩ := RunSort.sort_spec h hS
  have hmem (a : α) : a ∈ elements ↔ a = x ∨ a ∈ rest := by
    rw [← (RunSort.sort_perm less elements).mem_iff, hsort, List.mem_cons]
  rw [hsort, List.pairwise_cons] at hsorted
  have hx : S x := hS x ((hmem x).2 (.inl rfl))
  have hself : le x x := (h.total hx hx).elim id id
  have hleast : ∀ a ∈ elements, le x a := fun a ha => by
    rcases (hmem a).1 ha with rfl | ha
    · exact hself
    · exact hsorted.1 a ha
  refine ⟨hleast, ?_⟩
  -- The elements that are as small as the first are the ones that are tied with it.
  let tied (a : α) : Bool := a ∈ elements ∧ le a x
  have hfilter := hstable tied fun a b ha hb hatied hbtied => by
    simp only [tied, decide_eq_true_eq] at hatied hbtied
    exact h.trans ha hx hb hatied.2 (hleast b hbtied.1)
  have htied : tied x = true := by simp [tied, hself, hmem]
  rw [hsort, List.filter_cons_of_pos htied] at hfilter
  obtain ⟨before, after, hsplit, hbefore, -⟩ := List.filter_eq_cons_iff.1 hfilter.symm
  refine ⟨before, after, hsplit, fun a ha hax => ?_⟩
  have hnot := hbefore a ha
  simp [tied, hax, hsplit, ha] at hnot

end FirstLeast

end PropertyGraph
