/-!
Comparisons that come from a total preorder of the elements.
-/

namespace PropertyGraph.RunSort

variable {α : Type u} {less : α → α → Bool} {le : α → α → Prop} {S : α → Prop}

/-- On the elements of `S` the comparison says which one is not at most the other, and being at most
another is a total preorder. -/
structure Orders (less : α → α → Bool) (le : α → α → Prop) (S : α → Prop) : Prop where
  less_iff : ∀ {a b}, S a → S b → (less a b = true ↔ ¬ le b a)
  total : ∀ {a b}, S a → S b → le a b ∨ le b a
  trans : ∀ {a b c}, S a → S b → S c → le a b → le b c → le a c

/-- No element that passes the test has to stand before another one that does. -/
def Ties (le : α → α → Prop) (S : α → Prop) (tied : α → Bool) : Prop :=
  ∀ a b, S a → S b → tied a = true → tied b = true → le a b

namespace Orders

theorem le_of_less (h : Orders less le S) {a b : α} (ha : S a) (hb : S b)
    (hless : less a b = true) : le a b :=
  (h.total ha hb).resolve_right ((h.less_iff ha hb).1 hless)

theorem le_iff (h : Orders less le S) {a b : α} (ha : S a) (hb : S b) :
    le a b ↔ less b a = false := by
  rw [← Bool.not_eq_true, h.less_iff hb ha, Classical.not_not]

theorem refl (h : Orders less le S) {a : α} (ha : S a) : le a a := (h.total ha ha).elim id id

/-- What a comparison orders is in the order that the comparison itself says. -/
theorem ofLess (h : Orders less le S) : Orders less (fun a b => less b a = false) S where
  less_iff ha hb := by rw [Bool.not_eq_false]
  total ha hb := (h.total ha hb).imp (h.le_iff ha hb).1 (h.le_iff hb ha).1
  trans ha hb hc hab hbc := by
    rw [← h.le_iff ‹_› ‹_›] at hab hbc ⊢
    exact h.trans ha hb hc hab hbc

/-- Elements of which none is less than another one may stand in any order. -/
theorem of_not_less (h : ∀ a b, S a → S b → less a b = false) :
    Orders less (fun a b => less b a = false) S where
  less_iff ha hb := by rw [Bool.not_eq_false]
  total ha hb := .inl (h _ _ hb ha)
  trans ha _ hc _ _ := h _ _ hc ha

/-- A step down and another one are a step down, and so are two steps that are none. -/
theorem less_trans (h : Orders less le S) {a b c : α} {descending : Bool} (ha : S a) (hb : S b)
    (hc : S c) (hab : less b a = descending) (hbc : less c b = descending) :
    less c a = descending := by
  cases descending with
  | false =>
      rw [← h.le_iff ha hb] at hab
      rw [← h.le_iff hb hc] at hbc
      exact (h.le_iff ha hc).1 (h.trans ha hb hc hab hbc)
  | true =>
      rw [h.less_iff hb ha] at hab
      have hcb := h.le_of_less hc hb hbc
      exact (h.less_iff hc ha).2 fun hac => hab (h.trans ha hc hb hac hcb)

/-- Elements may be compared by what a function makes of them. -/
theorem comap {β : Type v} (h : Orders less le S) (f : β → α) {T : β → Prop}
    (hT : ∀ a, T a → S (f a)) :
    Orders (fun a b => less (f a) (f b)) (fun a b => le (f a) (f b)) T where
  less_iff ha hb := h.less_iff (hT _ ha) (hT _ hb)
  total ha hb := h.total (hT _ ha) (hT _ hb)
  trans ha hb hc := h.trans (hT _ ha) (hT _ hb) (hT _ hc)

/-- Elements that are tied may be told apart by their places. -/
theorem byPlace (h : Orders less le S) :
    Orders (fun p q : α × Nat => less p.1 q.1 || !less q.1 p.1 && decide (p.2 < q.2))
      (fun p q => le p.1 q.1 ∧ (le q.1 p.1 → p.2 ≤ q.2)) (fun p => S p.1) where
  less_iff {p q} hp hq := by
    have hpq := h.less_iff hp hq
    have hle := h.le_iff hp hq
    rw [Bool.or_eq_true, Bool.and_eq_true, Bool.not_eq_true', ← hle, hpq, decide_eq_true_iff]
    have htotal := h.total hp hq
    by_cases hback : le q.1 p.1
    · simp [hback]
    · simp [hback]
  total {p q} hp hq := by
    rcases h.total hp hq with hpq | hqp
    · by_cases hback : le q.1 p.1
      · exact (Nat.le_total p.2 q.2).imp (⟨hpq, fun _ => ·⟩) (⟨hback, fun _ => ·⟩)
      · exact .inl ⟨hpq, fun h => absurd h hback⟩
    · by_cases hback : le p.1 q.1
      · exact (Nat.le_total p.2 q.2).imp (⟨hback, fun _ => ·⟩) (⟨hqp, fun _ => ·⟩)
      · exact .inr ⟨hqp, fun h => absurd h hback⟩
  trans {p q r} hp hq hr hpq hqr := by
    refine ⟨h.trans hp hq hr hpq.1 hqr.1, fun hrp => ?_⟩
    exact Nat.le_trans (hpq.2 (h.trans hq hr hp hqr.1 hrp)) (hqr.2 (h.trans hr hp hq hrp hpq.1))

/-- Elements may be put into groups, one group before the next. -/
theorem grouped (group : α → Nat) (h : ∀ k, Orders less le fun a => S a ∧ group a = k) :
    Orders (fun a b => decide (group a < group b) || decide (group a = group b) && less a b)
      (fun a b => group a < group b ∨ group a = group b ∧ le a b) S where
  less_iff {a b} ha hb := by
    rcases Nat.lt_trichotomy (group a) (group b) with hlt | heq | hgt
    · simp [hlt, Nat.lt_asymm hlt, Nat.ne_of_gt hlt]
    · simp [heq, (h _).less_iff ⟨ha, heq⟩ ⟨hb, rfl⟩]
    · simp [hgt, Nat.lt_asymm hgt, Nat.ne_of_gt hgt]
  total {a b} ha hb := by
    rcases Nat.lt_trichotomy (group a) (group b) with hlt | heq | hgt
    · exact .inl (.inl hlt)
    · exact ((h _).total ⟨ha, heq⟩ ⟨hb, rfl⟩).imp (.inr ⟨heq, ·⟩) (.inr ⟨heq.symm, ·⟩)
    · exact .inr (.inl hgt)
  trans {a b c} ha hb hc hab hbc := by
    rcases hab with hab | ⟨hab, hle⟩
    · exact .inl (hbc.elim (Nat.lt_trans hab) fun h => h.1 ▸ hab)
    · rcases hbc with hbc | ⟨hbc, hle'⟩
      · exact .inl (hab ▸ hbc)
      · exact .inr ⟨hab.trans hbc, (h _).trans ⟨ha, hab.trans hbc⟩ ⟨hb, hbc⟩ ⟨hc, rfl⟩ hle hle'⟩

end Orders

end PropertyGraph.RunSort
