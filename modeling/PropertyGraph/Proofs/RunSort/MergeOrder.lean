import PropertyGraph.Proofs.RunSort.Merge

/-!
Merging two runs that are in order. What carries the proof is that each move takes elements that may
stand before all that are left, and that a run is only taken from without a look at the other one
where the last gallop has told which element comes first.
-/

namespace PropertyGraph.RunSort

variable {α : Type u} {d : Direction} {rightFirst : α → α → Bool} {R : α → α → Prop}
  {S : α → Prop} {left right : List α} {x y : α}

/-- On the elements of `S` an element is taken from the right run where `R` allows it, and from the
left run where `R` allows that; the choice changes once along each run. -/
structure Directs (rightFirst : α → α → Bool) (R : α → α → Prop) (S : α → Prop) : Prop where
  right : ∀ {x y}, S x → S y → rightFirst y x = true → R y x
  left : ∀ {x y}, S x → S y → rightFirst y x = false → R x y
  trans : ∀ {a b c}, S a → S b → S c → R a b → R b c → R a c
  mono_left : ∀ {a b y}, S a → S b → S y → R a b → rightFirst y a = true → rightFirst y b = true
  mono_right : ∀ {a b x}, S a → S b → S x → R a b → rightFirst b x = true → rightFirst a x = true

section

variable (hD : Directs rightFirst R S) {run : List α} (hrun : run.Pairwise R) (hS : ∀ a ∈ run, S a)

include hD hrun hS

theorem Directs.pairwise_left (hy : S y) :
    run.Pairwise fun a b => (!rightFirst y b) = true → (!rightFirst y a) = true := by
  refine hrun.imp_of_mem fun {a b} ha hb hab hyb => ?_
  rw [Bool.not_eq_true', Bool.eq_false_iff] at hyb ⊢
  exact fun hya => hyb (hD.mono_left (hS a ha) (hS b hb) hy hab hya)

theorem Directs.pairwise_right (hx : S x) :
    run.Pairwise fun a b => rightFirst b x = true → rightFirst a x = true :=
  hrun.imp_of_mem fun {a b} ha hb hab hbx => hD.mono_right (hS a ha) (hS b hb) hx hab hbx

end

section

variable {less : α → α → Bool} {le : α → α → Prop}

theorem Orders.forward (h : Orders less le S) : Directs less le S where
  right hx hy := h.le_of_less hy hx
  left hx hy hless := (h.le_iff hx hy).2 hless
  trans := h.trans
  mono_left ha hb hy hab hless :=
    (h.less_iff hy hb).2 fun hby => (h.less_iff hy ha).1 hless (h.trans ha hb hy hab hby)
  mono_right ha hb hx hab hless :=
    (h.less_iff ha hx).2 fun hxa => (h.less_iff hb hx).1 hless (h.trans hx ha hb hxa hab)

theorem Orders.backward (h : Orders less le S) :
    Directs (fun y x => !less y x) (fun a b => le b a) S where
  right hx hy hless := (h.le_iff hx hy).2 (by simpa using hless)
  left hx hy hless := h.le_of_less hy hx (by simpa using hless)
  trans ha hb hc hab hbc := h.trans hc hb ha hbc hab
  mono_left ha hb hy hab hless := by
    rw [Bool.not_eq_true', ← h.le_iff ‹_› hy] at hless ⊢
    exact h.trans hb ha hy hab hless
  mono_right ha hb hx hab hless := by
    rw [Bool.not_eq_true', ← h.le_iff hx ‹_›] at hless ⊢
    exact h.trans hx hb ha hless hab

end

/-- Two runs in order, where the run that a merge ends with is known to have the last element. -/
structure Mergeable (d : Direction) (R : α → α → Prop) (S : α → Prop) (left right : List α) :
    Prop where
  mem_left : ∀ x ∈ left, S x
  mem_right : ∀ y ∈ right, S y
  sorted_left : left.Pairwise R
  sorted_right : right.Pairwise R
  last : match d with
    | .forward => ∀ x ∈ left.getLast?, ∀ y ∈ right, R y x
    | .backward => ∀ y ∈ right.getLast?, ∀ x ∈ left, R x y

/-- In some phases the merge knows from which run it has to take an element. -/
def Phase.Ready (d : Direction) (rightFirst : α → α → Bool) (phase : Phase)
    (left right : List α) : Prop :=
  ∀ x ∈ left.head?, ∀ y ∈ right.head?,
    match phase with
    | start => rightFirst y x = decide (d = .forward)
    | takeRight _ => rightFirst y x = true
    | takeLeft _ => rightFirst y x = false
    | alternate .. | gallopLeft | gallopRight _ => True

/-- What a move takes may stand before all of the other run. -/
structure Move.Sound (m : Move) (R : α → α → Prop) (left right : List α) : Prop where
  ofRight : m.fromRight = true → ∀ y ∈ right.take m.count, ∀ x ∈ left, R y x
  ofLeft : m.fromRight = false → ∀ x ∈ left.take m.count, ∀ y ∈ right, R x y

theorem Move.sublist_left (m : Move) (run : List α) : (m.left run).Sublist run := by
  unfold Move.left
  split
  · exact .refl _
  · exact List.drop_sublist _ _

theorem Move.sublist_right (m : Move) (run : List α) : (m.right run).Sublist run := by
  unfold Move.right
  split
  · exact List.drop_sublist _ _
  · exact .refl _

theorem Move.getLast?_left {m : Move} {run : List α} (h : x ∈ (m.left run).getLast?) :
    x ∈ run.getLast? := by
  unfold Move.left at h
  split at h
  · exact h
  · rw [List.getLast?_drop] at h
    split at h
    · cases h
    · exact h

theorem Move.getLast?_right {m : Move} {run : List α} (h : x ∈ (m.right run).getLast?) :
    x ∈ run.getLast? := by
  unfold Move.right at h
  split at h
  · rw [List.getLast?_drop] at h
    split at h
    · cases h
    · exact h
  · exact h

theorem Mergeable.move (h : Mergeable d R S left right) (m : Move) :
    Mergeable d R S (m.left left) (m.right right) where
  mem_left x hx := h.mem_left x ((m.sublist_left left).mem hx)
  mem_right y hy := h.mem_right y ((m.sublist_right right).mem hy)
  sorted_left := h.sorted_left.sublist (m.sublist_left left)
  sorted_right := h.sorted_right.sublist (m.sublist_right right)
  last := by
    have hlast := h.last
    cases d with
    | forward =>
        exact fun x hx y hy => hlast x (Move.getLast?_left hx) y ((m.sublist_right right).mem hy)
    | backward =>
        exact fun y hy x hx => hlast y (Move.getLast?_right hy) x ((m.sublist_left left).mem hx)

theorem Mergeable.pairwise_finish? {rest : List α} (h : Mergeable d R S left right)
    (hfinish : finish? d left right = some rest) : rest.Pairwise R := by
  have hlast := h.last
  unfold finish? at hfinish
  split at hfinish
  · exact Option.some.inj hfinish ▸ h.sorted_left
  · exact Option.some.inj hfinish ▸ h.sorted_right
  · next x right =>
    obtain rfl := Option.some.inj hfinish
    exact List.pairwise_append.2
      ⟨h.sorted_right, h.sorted_left, by simpa using fun y hy => hlast x rfl y hy⟩
  · exact Option.some.inj hfinish ▸ h.sorted_right
  · exact Option.some.inj hfinish ▸ h.sorted_left
  · next left y _ =>
    obtain rfl := Option.some.inj hfinish
    exact List.pairwise_append.2
      ⟨h.sorted_left, h.sorted_right, by simpa using fun x hx => hlast y rfl x hx⟩
  · cases hfinish

/-- The elements of a run that pass a test, if those before an element that passes it do too. -/
theorem leading_spec (d : Direction) {p : α → Bool} {run : List α}
    (h : run.Pairwise fun a b => p b = true → p a = true) :
    (∀ a ∈ run.take (leading d p run), p a = true) ∧
      ∀ a ∈ run.drop (leading d p run), p a = false := by
  cases d with
  | forward => exact boundary_spec 0 h List.length_pos_iff.2
  | backward =>
      have hback : run.reverse.Pairwise fun a b => (!p b) = true → (!p a) = true := by
        refine List.pairwise_reverse.2 (h.imp fun {a b} hab hpa => ?_)
        rw [Bool.not_eq_true', Bool.eq_false_iff] at hpa ⊢
        exact fun hpb => hpa (hab hpb)
      obtain ⟨hfront, hrear⟩ := boundary_spec _ hback fun hrun => by
        have hpos := List.length_pos_iff.2 (mt List.reverse_eq_nil_iff.2 hrun)
        rw [List.length_reverse]
        exact Nat.sub_one_lt hpos.ne'
      simp only [leading]
      generalize boundary (fun x => !p x) run.reverse (run.length - 1) = k at hfront hrear
      rw [List.take_reverse] at hfront
      rw [List.drop_reverse] at hrear
      exact ⟨fun a ha => by simpa using hrear a (List.mem_reverse.2 ha),
        fun a ha => by simpa using hfront a (List.mem_reverse.2 ha)⟩

section

variable (hD : Directs rightFirst R S) (h : Mergeable d R S (x :: left) (y :: right))

include hD h

theorem Mergeable.right_before {b : α} (hb : b ∈ y :: right) (hright : rightFirst b x = true)
    {a : α} (ha : a ∈ x :: left) : R b a := by
  have hx := h.mem_left x List.mem_cons_self
  have hba := hD.right hx (h.mem_right b hb) hright
  rcases List.mem_cons.1 ha with rfl | ha
  · exact hba
  · exact hD.trans (h.mem_right b hb) hx (h.mem_left a (List.mem_cons_of_mem x ha)) hba
      ((List.pairwise_cons.1 h.sorted_left).1 a ha)

theorem Mergeable.left_before {a : α} (ha : a ∈ x :: left) (hleft : rightFirst y a = false)
    {b : α} (hb : b ∈ y :: right) : R a b := by
  have hy := h.mem_right y List.mem_cons_self
  have hab := hD.left (h.mem_left a ha) hy hleft
  rcases List.mem_cons.1 hb with rfl | hb
  · exact hab
  · exact hD.trans (h.mem_left a ha) hy (h.mem_right b (List.mem_cons_of_mem y hb)) hab
      ((List.pairwise_cons.1 h.sorted_right).1 b hb)

theorem Mergeable.gallop_left :
    let k := leading d (fun a => !rightFirst y a) (x :: left)
    (∀ a ∈ (x :: left).take k, rightFirst y a = false) ∧
      ∀ a ∈ (x :: left).drop k, rightFirst y a = true := by
  simpa using leading_spec d
    (hD.pairwise_left h.sorted_left h.mem_left (h.mem_right y List.mem_cons_self))

theorem Mergeable.gallop_right :
    let k := leading d (fun b => rightFirst b x) (y :: right)
    (∀ b ∈ (y :: right).take k, rightFirst b x = true) ∧
      ∀ b ∈ (y :: right).drop k, rightFirst b x = false :=
  leading_spec d (hD.pairwise_right h.sorted_right h.mem_right (h.mem_left x List.mem_cons_self))

theorem Mergeable.sound_move {phase : Phase} {patience : Nat}
    (hready : phase.Ready d rightFirst (x :: left) (y :: right)) :
    (phase.move d rightFirst patience (x :: left) (y :: right) x y).Sound R
      (x :: left) (y :: right) := by
  have hright : rightFirst y x = true → ∀ b ∈ (y :: right).take 1, ∀ a ∈ x :: left, R b a := by
    rintro hyx b hb a ha
    obtain rfl : b = y := by simpa using hb
    exact h.right_before hD List.mem_cons_self hyx ha
  have hleft : rightFirst y x = false → ∀ a ∈ (x :: left).take 1, ∀ b ∈ y :: right, R a b := by
    rintro hyx a ha b hb
    obtain rfl : a = x := by simpa using ha
    exact h.left_before hD List.mem_cons_self hyx hb
  have hready := hready x rfl y rfl
  cases phase with
  | start => exact ⟨fun hd => hright (hready.trans hd), fun hd => hleft (hready.trans hd)⟩
  | alternate side wins => exact ⟨hright, hleft⟩
  | gallopLeft =>
      refine ⟨nofun, fun _ a ha b hb => ?_⟩
      exact h.left_before hD (List.mem_of_mem_take ha) ((h.gallop_left hD).1 a ha) hb
  | takeRight long => exact ⟨fun _ => hright hready, nofun⟩
  | gallopRight long =>
      refine ⟨fun _ b hb a ha => ?_, nofun⟩
      exact h.right_before hD (List.mem_of_mem_take hb) ((h.gallop_right hD).1 b hb) ha
  | takeLeft long => cases long <;> exact ⟨nofun, fun _ => hleft hready⟩

theorem Mergeable.ready_move (phase : Phase) (patience : Nat) :
    let m := phase.move d rightFirst patience (x :: left) (y :: right) x y
    m.next.Ready d rightFirst (m.left (x :: left)) (m.right (y :: right)) := by
  intro m a ha b hb
  cases phase with
  | start | takeRight long => trivial
  | alternate side wins =>
      have hnext : m.next = .gallopLeft ∨ m.next = .alternate _ _ := ite_eq_or_eq _ _ _
      rcases hnext with hnext | hnext <;> rw [hnext] <;> trivial
  | gallopLeft =>
      obtain rfl : y = b := by simpa [m, Phase.move, Move.right] using hb
      exact (h.gallop_left hD).2 a (List.mem_of_mem_head? ha)
  | gallopRight long =>
      obtain rfl : x = a := by simpa [m, Phase.move, Move.left] using ha
      exact (h.gallop_right hD).2 b (List.mem_of_mem_head? hb)
  | takeLeft long => cases long <;> trivial

end

/-- What a move takes and what is left, once that is in order, are in order together. -/
theorem Mergeable.pairwise_append {m : Move} {rest : List α} (h : Mergeable d R S left right)
    (hsound : m.Sound R left right) (hperm : rest.Perm (m.left left ++ m.right right))
    (hrest : rest.Pairwise R) : (m.taken left right ++ rest).Pairwise R := by
  rw [List.pairwise_append]
  have hmem : ∀ b ∈ rest, b ∈ m.left left ∨ b ∈ m.right right := fun b hb =>
    List.mem_append.1 (hperm.mem_iff.1 hb)
  unfold Move.taken
  cases hside : m.fromRight with
  | true =>
      refine ⟨h.sorted_right.sublist (List.take_sublist _ _), hrest, fun y hy b hb => ?_⟩
      rcases hmem b hb with hb | hb
      · exact hsound.ofRight hside y hy b ((m.sublist_left left).mem hb)
      · rw [Move.right, hside] at hb
        have hright := h.sorted_right
        rw [← List.take_append_drop m.count right, List.pairwise_append] at hright
        exact hright.2.2 y hy b hb
  | false =>
      refine ⟨h.sorted_left.sublist (List.take_sublist _ _), hrest, fun x hx b hb => ?_⟩
      rcases hmem b hb with hb | hb
      · rw [Move.left, hside] at hb
        have hleft := h.sorted_left
        rw [← List.take_append_drop m.count left, List.pairwise_append] at hleft
        exact hleft.2.2 x hx b hb
      · exact hsound.ofLeft hside x hx b ((m.sublist_right right).mem hb)

/-- A merge of two runs in order is in order. -/
theorem pairwise_merge (hD : Directs rightFirst R S) {phase : Phase} {patience : Nat}
    (h : Mergeable d R S left right) (hready : phase.Ready d rightFirst left right) :
    (merge d rightFirst phase patience left right).1.Pairwise R := by
  fun_induction merge d rightFirst phase patience left right with
  | case1 phase patience x left y right m taken rest hfinish =>
      exact h.pairwise_append (h.sound_move hD hready) (perm_finish? hfinish)
        ((h.move m).pairwise_finish? hfinish)
  | case2 phase patience x left y right m taken hfinish rest patience' hmerge ih =>
      have hperm :=
        perm_merge d rightFirst m.next m.patience (m.left (x :: left)) (m.right (y :: right))
      have hrest := ih (h.move m) (h.ready_move hD phase patience)
      rw [hmerge] at hperm hrest
      exact h.pairwise_append (h.sound_move hD hready) hperm hrest
  | case3 phase patience left right hne =>
      rcases left with _ | ⟨x, left⟩
      · exact h.sorted_right
      · rcases right with _ | ⟨y, right⟩
        · rw [List.append_nil]
          exact h.sorted_left
        · exact absurd rfl (hne x left y right rfl)

/-- The ends of two runs that belong before and behind all of the other run may stay around what is
between them, in whatever order that comes. -/
theorem pairwise_around {low high middle : List α} (hleft : (low ++ left).Pairwise R)
    (hright : (right ++ high).Pairwise R) (hbefore : ∀ a ∈ low, ∀ b ∈ right ++ high, R a b)
    (hbehind : ∀ a ∈ low ++ left, ∀ b ∈ high, R a b) (hperm : middle.Perm (left ++ right))
    (hmiddle : middle.Pairwise R) : (low ++ middle ++ high).Pairwise R := by
  obtain ⟨hlow, -, hlowLeft⟩ := List.pairwise_append.1 hleft
  obtain ⟨-, hhigh, hrightHigh⟩ := List.pairwise_append.1 hright
  have hmem : ∀ m ∈ middle, m ∈ left ∨ m ∈ right := fun m hm =>
    List.mem_append.1 (hperm.mem_iff.1 hm)
  rw [List.append_assoc, List.pairwise_append, List.pairwise_append]
  refine ⟨hlow, ⟨hmiddle, hhigh, fun m hm b hb => ?_⟩, fun a ha b hb => ?_⟩
  · rcases hmem m hm with hm | hm
    · exact hbehind m (List.mem_append_right _ hm) b hb
    · exact hrightHigh m hm b hb
  · rcases List.mem_append.1 hb with hb | hb
    · rcases hmem b hb with hb | hb
      · exact hlowLeft a ha b hb
      · exact hbefore a ha b (List.mem_append_left _ hb)
    · exact hbehind a (List.mem_append_left _ ha) b hb

section

variable {less : α → α → Bool} {le : α → α → Prop} (h : Orders less le S)

include h

theorem pairwise_mergeMiddle {patience : Nat} (hS : ∀ a ∈ left ++ right, S a)
    (hleft : left.Pairwise le) (hright : right.Pairwise le)
    (hfirst : ∀ y ∈ right.head?, ∀ x ∈ left, less y x = true)
    (hlast : ∀ x ∈ left.getLast?, ∀ y ∈ right, less y x = true) :
    (mergeMiddle less patience left right).1.Pairwise le := by
  have hSleft : ∀ x ∈ left, S x := fun x hx => hS x (List.mem_append_left _ hx)
  have hSright : ∀ y ∈ right, S y := fun y hy => hS y (List.mem_append_right _ hy)
  unfold mergeMiddle
  split
  · have hmergeable : Mergeable .forward le S left right :=
      ⟨hSleft, hSright, hleft, hright, fun x hx y hy =>
        h.le_of_less (hSright y hy) (hSleft x (List.mem_of_getLast? hx)) (hlast x hx y hy)⟩
    exact pairwise_merge h.forward hmergeable fun x hx y hy =>
      hfirst y hy x (List.mem_of_mem_head? hx)
  · have hmergeable : Mergeable .backward (fun a b => le b a) S left.reverse right.reverse := by
      refine ⟨by simpa using hSleft, by simpa using hSright, List.pairwise_reverse.2 hleft,
        List.pairwise_reverse.2 hright, fun y hy x hx => ?_⟩
      rw [List.getLast?_reverse] at hy
      rw [List.mem_reverse] at hx
      exact h.le_of_less (hSright y (List.mem_of_mem_head? hy)) (hSleft x hx) (hfirst y hy x hx)
    refine List.pairwise_reverse.2 (pairwise_merge h.backward hmergeable fun x hx y hy => ?_)
    rw [List.head?_reverse] at hx hy
    simpa using hlast x hx y (List.mem_of_getLast? hy)

theorem le_getLast? {x : α} (hS : ∀ a ∈ left, S a) (hleft : left.Pairwise le)
    (hx : x ∈ left.getLast?) : ∀ a ∈ left, le a x := by
  obtain ⟨front, rfl⟩ := List.getLast?_eq_some_iff.1 hx
  have hlast : x ∈ front ++ [x] := List.mem_append_right front List.mem_cons_self
  refine List.forall_mem_append.2 ⟨fun a ha => ?_, fun a ha => ?_⟩
  · exact (List.pairwise_append.1 hleft).2.2 a ha x List.mem_cons_self
  · rw [List.mem_singleton.1 ha]
    exact h.refl (hS x hlast)

/-- What is put before the merged middle and behind it belongs there. -/
theorem pairwise_mergeRuns {patience : Nat} (hS : ∀ a ∈ left ++ right, S a)
    (hleft : left.Pairwise le) (hright : right.Pairwise le) :
    (mergeRuns less patience left right).1.Pairwise le := by
  obtain ⟨hSleft, hSright⟩ := List.forall_mem_append.1 hS
  unfold mergeRuns
  split
  · exact hleft
  · next y rest =>
    have hy : S y := hSright y List.mem_cons_self
    obtain ⟨hlow, habove⟩ := boundary_spec 0 (h.forward.pairwise_left hleft hSleft hy)
      List.length_pos_iff.2
    dsimp only
    generalize boundary (fun x => !less y x) left 0 = start at hlow habove
    have hbefore : ∀ a ∈ left.take start, ∀ b ∈ y :: rest, le a b := by
      intro a ha b hb
      have hSa := hSleft a (List.mem_of_mem_take ha)
      have hay : le a y := (h.le_iff hSa hy).2 (by simpa using hlow a ha)
      rcases List.mem_cons.1 hb with rfl | hb
      · exact hay
      · exact h.trans hSa hy (hSright b (List.mem_cons_of_mem y hb)) hay
          ((List.pairwise_cons.1 hright).1 b hb)
    rw [← List.take_append_drop start left] at hleft
    split
    · next hnone =>
      rw [List.getLast?_eq_none_iff] at hnone
      rw [hnone, List.append_nil] at hleft
      rw [← List.take_append_drop start left, hnone, List.append_nil]
      exact List.pairwise_append.2 ⟨hleft, hright, hbefore⟩
    · next x hlast =>
      have hx : S x := hSleft x (List.mem_of_mem_drop (List.mem_of_getLast? hlast))
      obtain ⟨hbelow, hhigh⟩ := boundary_spec rest.length
        (h.forward.pairwise_right hright hSright hx) fun _ => Nat.lt_succ_self _
      generalize boundary (fun y => less y x) (y :: rest) rest.length = stop at hbelow hhigh
      have hSdrop : ∀ a ∈ left.drop start, S a := fun a ha => hSleft a (List.mem_of_mem_drop ha)
      have hbehind : ∀ a ∈ left.take start ++ left.drop start, ∀ b ∈ (y :: rest).drop stop,
          le a b := by
        refine List.forall_mem_append.2 ⟨fun a ha b hb => ?_, fun a ha b hb => ?_⟩
        · exact hbefore a ha b (List.mem_of_mem_drop hb)
        · have hSb := hSright b (List.mem_of_mem_drop hb)
          have hax := le_getLast? h hSdrop (hleft.sublist (List.sublist_append_right _ _)) hlast a ha
          exact h.trans (hSdrop a ha) hx hSb hax ((h.le_iff hx hSb).2 (hhigh b hb))
      split
      · next hstop =>
        rw [hstop, List.drop_zero] at hbehind
        rw [← List.take_append_drop start left]
        exact List.pairwise_append.2 ⟨hleft, hright, hbehind⟩
      · next hstop =>
        have hSmiddle : ∀ a ∈ left.drop start ++ (y :: rest).take stop, S a :=
          List.forall_mem_append.2 ⟨hSdrop, fun b hb => hSright b (List.mem_of_mem_take hb)⟩
        have hfirst : ∀ b ∈ ((y :: rest).take stop).head?, ∀ a ∈ left.drop start,
            less b a = true := by
          intro b hb a ha
          obtain rfl : y = b := by simpa [List.head?_take, hstop] using hb
          simpa using habove a ha
        have hlast' : ∀ a ∈ (left.drop start).getLast?, ∀ b ∈ (y :: rest).take stop,
            less b a = true := by
          intro a ha b hb
          obtain rfl : a = x := Option.some.inj (ha.symm.trans hlast)
          exact hbelow b hb
        exact pairwise_around hleft (by rwa [List.take_append_drop])
          (by rwa [List.take_append_drop]) hbehind (perm_mergeMiddle _ _ _ _)
          (pairwise_mergeMiddle h hSmiddle (hleft.sublist (List.sublist_append_right _ _))
            (hright.sublist (List.take_sublist _ _)) hfirst hlast')

end

end PropertyGraph.RunSort
