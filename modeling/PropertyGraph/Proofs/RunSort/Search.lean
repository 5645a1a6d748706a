import PropertyGraph.RunSort.Search

/-!
Where the searches end. If the test holds up to some place and fails from there on, each search ends at
that place, wherever it began.
-/

namespace PropertyGraph.RunSort

/-- The test holds below `k` and fails from there up to `n`. -/
structure Separates (p : Nat → Bool) (n k : Nat) : Prop where
  le : k ≤ n
  below : ∀ i < k, p i = true
  above : ∀ i, k ≤ i → i < n → p i = false

section

variable {p : Nat → Bool} {n : Nat} (hp : ∀ i j, i ≤ j → j < n → p j = true → p i = true)

include hp

theorem separates_bisect {lo hi : Nat} (hle : lo ≤ hi) (hhi : hi ≤ n)
    (hbelow : ∀ i < lo, p i = true) (habove : ∀ i, hi ≤ i → i < n → p i = false) :
    Separates p n (bisect p lo hi) := by
  fun_induction bisect p lo hi with
  | case1 lo hi hlt mid hmid ih =>
      refine ih (by omega) hhi (fun i hi => ?_) habove
      exact hp i mid (by omega) (by omega) hmid
  | case2 lo hi hlt mid hmid ih =>
      refine ih (by omega) (by omega) hbelow fun i hi hn => ?_
      exact Bool.eq_false_iff.2 fun hpi => hmid (hp mid i hi hn hpi)
  | case3 lo hi hge =>
      obtain rfl : lo = hi := by omega
      exact ⟨hhi, hbelow, habove⟩

end

/-- Leaping ends between an offset at which the test holds and one at which it fails, or the limit. -/
theorem leap_spec (p : Nat → Bool) (limit : Nat) {last offset : Nat} (hlast : p last = true)
    (hlt : last < offset) (hoffset : offset ≤ limit) :
    ∃ last' offset', leap p limit last offset = (last', offset') ∧ p last' = true ∧
      last' < offset' ∧ offset' ≤ limit ∧ (offset' < limit → p offset' = false) := by
  by_cases hlimit : offset < limit
  · fun_induction leap p limit last offset with
    | case1 last offset _ hp ih =>
        by_cases hnext : 2 * offset + 1 < limit
        · exact ih hp (by omega) (by omega) hnext
        · rw [leap, if_neg hnext]
          exact ⟨offset, limit, rfl, hp, hlimit, Nat.le_refl _, fun h => absurd h (Nat.lt_irrefl _)⟩
    | case2 last offset _ hp =>
        exact ⟨last, offset, rfl, hlast, hlt, hoffset, fun _ => by simpa using hp⟩
    | case3 last offset hge => exact absurd hlimit hge
  · rw [leap, if_neg hlimit]
    obtain rfl : offset = limit := by omega
    exact ⟨last, offset, rfl, hlast, hlt, Nat.le_refl _, fun h => absurd h (Nat.lt_irrefl _)⟩

theorem separates_gallop {p : Nat → Bool} {n hint : Nat}
    (hp : ∀ i j, i ≤ j → j < n → p j = true → p i = true) (hhint : hint < n) :
    Separates p n (gallop p n hint) := by
  unfold gallop
  cases hstart : p hint with
  | true =>
      obtain ⟨last, offset, hleap, hlast, hlt, hlimit, hfails⟩ :=
        leap_spec (fun i => p (hint + i)) (n - hint) (show p (hint + 0) = true from hstart)
          Nat.zero_lt_one (by omega)
      rw [if_pos rfl, hleap]
      refine separates_bisect hp (by omega) (by omega) (fun i hi => ?_) fun i hi hn => ?_
      · exact hp i (hint + last) (by omega) (by omega) hlast
      · refine Bool.eq_false_iff.2 fun hpi => ?_
        have hoffset := hp (hint + offset) i hi hn hpi
        cases hoffset.symm.trans (hfails (by omega))
  | false =>
      obtain ⟨last, offset, hleap, hlast, hlt, hlimit, hfails⟩ :=
        leap_spec (fun i => !p (hint - i)) (hint + 1) (show (!p (hint - 0)) = true by simpa)
          Nat.zero_lt_one (by omega)
      rw [if_neg Bool.false_ne_true, hleap]
      refine separates_bisect hp (by omega) (by omega) (fun i hi => ?_) fun i hi hn => ?_
      · have hoffset := hfails (by omega)
        exact hp i (hint - offset) (by omega) (by omega) (by simpa using hoffset)
      · refine Bool.eq_false_iff.2 fun hpi => ?_
        have hfirst := hp (hint - last) i hi hn hpi
        simp [hfirst] at hlast

section

variable {α : Type u} {p : α → Bool} {elements : List α}

theorem any_getElem?_of_le (h : elements.Pairwise fun a b => p b = true → p a = true) (i j : Nat)
    (hij : i ≤ j) (hj : j < elements.length) (hpj : elements[j]?.any p = true) :
    elements[i]?.any p = true := by
  rw [List.getElem?_eq_getElem hj] at hpj
  rw [List.getElem?_eq_getElem (by omega)]
  rcases Nat.lt_or_eq_of_le hij with hlt | rfl
  · exact List.pairwise_iff_getElem.1 h i j (by omega) hj hlt hpj
  · exact hpj

theorem Separates.take_drop {k : Nat}
    (h : Separates (fun i => elements[i]?.any p) elements.length k) :
    (∀ a ∈ elements.take k, p a = true) ∧ ∀ a ∈ elements.drop k, p a = false := by
  constructor
  · intro a ha
    obtain ⟨i, hi, rfl⟩ := List.mem_iff_getElem.1 ha
    have hi' : i < k ∧ i < elements.length := by
      rw [List.length_take] at hi
      omega
    have hpi := h.below i hi'.1
    rwa [List.getElem?_eq_getElem hi'.2, ← List.getElem_take (h := hi)] at hpi
  · intro a ha
    obtain ⟨i, hi, rfl⟩ := List.mem_iff_getElem.1 ha
    rw [List.length_drop] at hi
    have hpi := h.above (k + i) (Nat.le_add_right _ _) (by omega)
    rwa [List.getElem?_eq_getElem (by omega), ← List.getElem_drop] at hpi

/-- If no element passes the test behind one that fails it, those that pass are all at the start. -/
theorem boundary_spec (hint : Nat) (h : elements.Pairwise fun a b => p b = true → p a = true)
    (hhint : elements ≠ [] → hint < elements.length) :
    (∀ a ∈ elements.take (boundary p elements hint), p a = true) ∧
      ∀ a ∈ elements.drop (boundary p elements hint), p a = false := by
  by_cases hempty : elements = []
  · simp [hempty]
  · exact (separates_gallop (any_getElem?_of_le h) (hhint hempty)).take_drop

theorem any_getElem?_congr {q : α → Bool} (h : ∀ a ∈ elements, p a = q a) :
    (fun i : Nat => elements[i]?.any p) = fun i => elements[i]?.any q := by
  funext i
  cases hget : elements[i]? with
  | none => rfl
  | some a => exact h a (List.mem_of_getElem? hget)

theorem boundary_congr {q : α → Bool} (h : ∀ a ∈ elements, p a = q a) (hint : Nat) :
    boundary p elements hint = boundary q elements hint := by
  rw [boundary, boundary, any_getElem?_congr h]

theorem boundary_map {β : Type v} (f : β → α) (p : α → Bool) (elements : List β) (hint : Nat) :
    boundary p (elements.map f) hint = boundary (fun b => p (f b)) elements hint := by
  simp [boundary, Option.any_map]

end

end PropertyGraph.RunSort
