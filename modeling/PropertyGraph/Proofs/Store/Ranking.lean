import PropertyGraph.Proofs.Number.Order
import PropertyGraph.Proofs.Store.Similarity

/-!
The nodes most similar to a vector. Those whose score reaches the threshold have one order, best
first and equal scores as they were; its beginning is what is returned, of the length of the limit,
also where the limit cuts equal scores apart.
-/

namespace PropertyGraph

namespace Similarity

namespace Scored

/-- The two scores are equal. -/
def Ties (a b : Scored) : Prop := a.score.compare? b.score = some .eq

instance (a b : Scored) : Decidable (a.Ties b) := inferInstanceAs (Decidable (_ = _))

/-- The place of the score on the line. A NaN, which has none, is put below all. -/
def place (s : Scored) : Extended := s.score.place?.getD .bottom

variable {a b : Scored} (ha : a.score ≠ .nan) (hb : b.score ≠ .nan)

include ha in
theorem place?_score : a.score.place? = some a.place := by
  obtain ⟨p, hp⟩ := Option.isSome_iff_exists.1 (Double.place?_isSome_iff.2 ha)
  rw [place, hp, Option.getD_some]

include ha hb

theorem compare?_score : a.score.compare? b.score = some (a.place.compare b.place) := by
  rw [Double.compare?, place?_score ha, place?_score hb]
  rfl

theorem ties_iff : a.Ties b ↔ a.place = b.place := by
  rw [Ties, compare?_score ha hb, Option.some.injEq, Extended.compare_eq_eq_iff]

theorem not_lt_iff : ¬ a.score < b.score ↔ (b.place.compare a.place).isLE = true := by
  have hlt : a.score < b.score ↔ a.place.compare b.place = .lt := by
    rw [← Option.some_inj, ← compare?_score ha hb]
    rfl
  rw [hlt, ← Extended.compare_swap a.place]
  cases a.place.compare b.place <;> decide

/-- Scores of which neither is lower are equal. -/
theorem ties_of_not_lt (hab : ¬ a.score < b.score) (hba : ¬ b.score < a.score) : a.Ties b := by
  rw [not_lt_iff ha hb] at hab
  rw [not_lt_iff hb ha] at hba
  rw [ties_iff ha hb]
  exact Extended.compare_eq_eq_iff.1 (Std.OrientedCmp.isLE_antisymm hba hab)

omit hb

theorem ties_self : a.Ties a := (ties_iff ha ha).2 rfl

theorem not_lt_self : ¬ a.score < a.score := by
  rw [not_lt_iff ha ha, Extended.compare_eq_eq_iff.2 rfl]
  rfl

end Scored

/-- All of some scored nodes, best first, and those of equal scores as they were. -/
structure Ranking (scored ranked : List Scored) : Prop where
  perm : ranked.Perm scored
  descending : ranked.Pairwise fun a b => ¬ a.score < b.score
  stable : ∀ s ∈ scored, ranked.filter (s.Ties ·) = scored.filter (s.Ties ·)

/-- The nodes that reach the threshold, in the order in which they are given, with their scores. -/
def eligible [VectorArithmetic] (vector : List Number) (threshold : Number) (nodes : List Node) :
    List Scored :=
  (nodes.filterMap (scored? vector)).filter fun s =>
    s.score ≠ .nan ∧ threshold ≤ .float s.score

section

variable {scored ranked other : List Scored}

/-- Nothing in a descending list is above its head. -/
theorem not_lt_of_head {a b : Scored} (ha : a.score ≠ .nan)
    (h : (a :: scored).Pairwise fun a b => ¬ a.score < b.score) (hb : b ∈ a :: scored) :
    ¬ a.score < b.score := by
  rcases List.mem_cons.1 hb with rfl | hlater
  · exact Scored.not_lt_self ha
  · exact (List.pairwise_cons.1 h).1 b hlater

/-- Two lists of the same scored nodes that both descend differ at most among equal scores. -/
theorem eq_of_descending (hnan : ∀ s ∈ ranked, s.score ≠ .nan) (hperm : ranked.Perm other)
    (hranked : ranked.Pairwise fun a b => ¬ a.score < b.score)
    (hother : other.Pairwise fun a b => ¬ a.score < b.score)
    (hties : ∀ s ∈ ranked, ranked.filter (s.Ties ·) = other.filter (s.Ties ·)) :
    ranked = other := by
  induction ranked generalizing other with
  | nil => exact hperm.nil_eq
  | cons a rest ih =>
      cases other with
      | nil => exact hperm.eq_nil
      | cons b others =>
          obtain ⟨ha, hrest⟩ := List.forall_mem_cons.1 hnan
          have hmem : b ∈ a :: rest := hperm.mem_iff.2 List.mem_cons_self
          -- Each of the two heads is somewhere in the other list, so that neither is above.
          have hab : ¬ a.score < b.score := not_lt_of_head ha hranked hmem
          have hba : ¬ b.score < a.score :=
            not_lt_of_head (hnan b hmem) hother (hperm.mem_iff.1 List.mem_cons_self)
          have htie : a.Ties b := Scored.ties_of_not_lt ha (hnan b hmem) hab hba
          have hfirst := hties a List.mem_cons_self
          rw [List.filter_cons, if_pos (decide_eq_true (Scored.ties_self ha)), List.filter_cons,
            if_pos (decide_eq_true htie)] at hfirst
          obtain rfl := (List.cons.inj hfirst).1
          refine congrArg (a :: ·) (ih hrest hperm.cons_inv (List.pairwise_cons.1 hranked).2
            (List.pairwise_cons.1 hother).2 fun s hs => ?_)
          have hrests := hties s (List.mem_cons_of_mem a hs)
          rw [List.filter_cons, List.filter_cons] at hrests
          split at hrests
          · exact (List.cons.inj hrests).2
          · exact hrests

/-- The place of the second is not above that of the first. -/
def placesBefore (a b : Scored) : Bool := (b.place.compare a.place).isLE

theorem placesBefore_trans (a b c : Scored) (hab : placesBefore a b = true)
    (hbc : placesBefore b c = true) : placesBefore a c = true :=
  Std.TransCmp.isLE_trans hbc hab

theorem placesBefore_total (a b : Scored) : (placesBefore a b || placesBefore b a) = true := by
  rw [placesBefore, placesBefore, ← Extended.compare_swap a.place]
  cases a.place.compare b.place <;> rfl

variable (hnan : ∀ s ∈ scored, s.score ≠ .nan)

include hnan

/-- Nodes can be ranked in one way only. -/
theorem Ranking.unique (hranked : Ranking scored ranked) (hother : Ranking scored other) :
    ranked = other := by
  have hmem : ∀ s ∈ ranked, s ∈ scored := fun s => hranked.perm.mem_iff.1
  exact eq_of_descending (fun s hs => hnan s (hmem s hs)) (hranked.perm.trans hother.perm.symm)
    hranked.descending hother.descending fun s hs =>
      (hranked.stable s (hmem s hs)).trans (hother.stable s (hmem s hs)).symm

/-- Scores that are no NaN are sorted as their places. -/
theorem mergeSort_ranksBefore : scored.mergeSort ranksBefore = scored.mergeSort placesBefore := by
  have hmap := List.map_mergeSort (r := ranksBefore) (f := id) (s := placesBefore) (l := scored)
    fun a ha b hb => by
      rw [Bool.eq_iff_iff, ranksBefore, Bool.not_eq_true', decide_eq_false_iff_not]
      exact Scored.not_lt_iff (hnan a ha) (hnan b hb)
  simpa using hmap

/-- Nodes tied with one another are in order as they are. -/
theorem pairwise_filter_ties {s : Scored} (hs : s ∈ scored) :
    (scored.filter (s.Ties ·)).Pairwise fun a b => placesBefore a b = true := by
  refine List.pairwise_of_forall_mem_list fun a ha b hb => ?_
  obtain ⟨hmema, ha⟩ := List.mem_filter.1 ha
  obtain ⟨hmemb, hb⟩ := List.mem_filter.1 hb
  rw [decide_eq_true_iff, Scored.ties_iff (hnan s hs) (hnan _ hmema)] at ha
  rw [decide_eq_true_iff, Scored.ties_iff (hnan s hs) (hnan _ hmemb)] at hb
  rw [placesBefore, ← ha, ← hb, Extended.compare_eq_eq_iff.2 rfl]
  rfl

/-- The order of two scores that are no NaN is a total preorder of places, so that a stable sort
ranks. -/
theorem ranking_mergeSort : Ranking scored (scored.mergeSort ranksBefore) := by
  have hperm : (scored.mergeSort ranksBefore).Perm scored := List.mergeSort_perm _ _
  refine ⟨hperm, ?_, fun s hs => ?_⟩
  · rw [mergeSort_ranksBefore hnan]
    refine (List.pairwise_mergeSort placesBefore_trans placesBefore_total scored).imp_of_mem
      fun {a b} ha hb h => ?_
    rw [List.mem_mergeSort] at ha hb
    exact (Scored.not_lt_iff (hnan a ha) (hnan b hb)).2 h
  · have hsublist : (scored.filter (s.Ties ·)).Sublist (scored.mergeSort ranksBefore) := by
      rw [mergeSort_ranksBefore hnan]
      exact List.sublist_mergeSort placesBefore_trans placesBefore_total
        (pairwise_filter_ties hnan hs) List.filter_sublist
    have hfiltered := hsublist.filter (s.Ties ·)
    rw [List.filter_filter] at hfiltered
    simp only [Bool.and_self] at hfiltered
    exact (hfiltered.eq_of_length (hperm.filter _).length_eq.symm).symm

end

section

variable [VectorArithmetic] {vector : List Number} {threshold : Number} {nodes : List Node}

theorem ne_nan_of_eligible : ∀ s ∈ eligible vector threshold nodes, s.score ≠ .nan := by
  intro s hs
  have hpasses := (List.mem_filter.1 hs).2
  exact (of_decide_eq_true hpasses).1

/-- The eligible nodes, best first. -/
def ranked (vector : List Number) (threshold : Number) (nodes : List Node) : List Scored :=
  (eligible vector threshold nodes).mergeSort ranksBefore

theorem ranking_ranked :
    Ranking (eligible vector threshold nodes) (ranked vector threshold nodes) :=
  ranking_mergeSort ne_nan_of_eligible

/-- NaN is above no threshold, so that the nodes that are sorted are the eligible ones. -/
theorem select_filterMap (limit : Nat) (threshold : Number) (nodes : List Node) :
    select limit threshold (nodes.filterMap (scored? vector)) =
      (ranked vector threshold nodes).take limit := by
  rw [select, ranked, eligible]
  refine congrArg (fun found : List Scored => (found.mergeSort ranksBefore).take limit) ?_
  refine List.filter_congr fun s _ => decide_eq_decide.2 ⟨fun h => ⟨?_, h⟩, And.right⟩
  exact Double.place?_isSome_iff.1 (Number.hasPlace_right_of_le h)

variable [LawfulVectorArithmetic]

theorem rank_of_comparesAll (threshold : Number) {limit : Int} (hlimit : 0 ≤ limit)
    (h : ComparesAll vector nodes) :
    rank vector nodes limit threshold = .ok ((ranked vector threshold nodes).take limit.toNat) := by
  rw [rank, if_neg (Int.not_lt.2 hlimit), scoreAll_of_comparesAll h]
  exact congrArg Except.ok (select_filterMap _ _ _)

theorem rank_of_not_comparesAll (threshold : Number) {limit : Int} (hlimit : 0 ≤ limit)
    (h : ¬ ComparesAll vector nodes) :
    rank vector nodes limit threshold = .error (.arithmetic .integerTooLarge) := by
  rw [rank, if_neg (Int.not_lt.2 hlimit), scoreAll_of_not_comparesAll h]

/-- The nodes that are returned are the first of the one ranking of all that are eligible, as many
as the limit says. So none of those that are left out has a higher score than one of them, and under
a limit that covers all none is left out. A negative limit is refused, and so is a vector that cannot
be compared with an embedding. -/
theorem rank_exact (vector : List Number) (nodes : List Node) (limit : Int) (threshold : Number) :
    (limit < 0 → rank vector nodes limit threshold = .error (.negativeLimit limit)) ∧
    (0 ≤ limit → ¬ ComparesAll vector nodes →
      rank vector nodes limit threshold = .error (.arithmetic .integerTooLarge)) ∧
    (0 ≤ limit → ComparesAll vector nodes → ∃ best rest,
      rank vector nodes limit threshold = .ok best ∧
      (∀ order, Ranking (eligible vector threshold nodes) order ↔ order = best ++ rest) ∧
      best.length = min limit.toNat (eligible vector threshold nodes).length ∧
      (∀ a ∈ best, ∀ b ∈ rest, ¬ a.score < b.score) ∧
      ((eligible vector threshold nodes).length ≤ limit →
        best.Perm (eligible vector threshold nodes))) := by
  refine ⟨fun hnegative => ?_, rank_of_not_comparesAll threshold, fun hlimit hcompares => ?_⟩
  · rw [rank, if_pos hnegative]
  · have hranking : Ranking (eligible vector threshold nodes) (ranked vector threshold nodes) :=
      ranking_ranked
    refine ⟨_, (ranked vector threshold nodes).drop limit.toNat,
      rank_of_comparesAll threshold hlimit hcompares, fun other => ?_, ?_, ?_, fun hcovers => ?_⟩
    · rw [List.take_append_drop]
      exact ⟨fun hother => hother.unique ne_nan_of_eligible hranking, fun h => h ▸ hranking⟩
    · rw [List.length_take, hranking.perm.length_eq]
    · exact fun a ha b hb => hranking.descending.rel_of_mem_take_of_mem_drop ha hb
    · have hlength : (ranked vector threshold nodes).length ≤ limit.toNat := by
        rw [hranking.perm.length_eq]
        omega
      rw [List.take_of_length_le hlength]
      exact hranking.perm

end

/-- Of equal scores the first stands first, though the limit cuts them apart. Neither a lower score
nor NaN is returned. -/
theorem rank_of_ties :
    let node (id : String) (embedding : Option (List Number)) : Node :=
      { id := .str id, type := "t", embedding }
    let vector : List Number := [.int 1, .int 0]
    let a := node "a" (some [.int 0, .int 1])
    let b := node "b" (some [.int 1, .int 0])
    let c := node "c" (some [.int 0, .int 2])
    let d := node "d" none
    let e := node "e" (some [.int (-1), .int 0])
    let f := node "f" (some [.float .nan, .int 0])
    let nodes := [a, b, c, d, e, f]
    (0 : Int) ≤ 2 ∧ ComparesAll vector nodes ∧ (-1 : Int) < 0 ∧
      rank vector nodes 2 (.int 0) = .ok [⟨b, .ofInt 1⟩, ⟨a, .zero⟩] ∧
      rank vector nodes (-1) (.int 0) = .error (.negativeLimit (-1)) := by
  intro node vector a b c d e f nodes
  have ha : cosine vector [.int 0, .int 1] = .ok .zero := by decide +kernel
  have hb : cosine vector [.int 1, .int 0] = .ok (.ofInt 1) := by decide +kernel
  have hc : cosine vector [.int 0, .int 2] = .ok .zero := by decide +kernel
  have he : cosine vector [.int (-1), .int 0] = .ok (.ofInt (-1)) := by decide +kernel
  have hf : cosine vector [.float .nan, .int 0] = .ok .nan := by decide +kernel
  have hcompares : ComparesAll vector nodes := by
    intro scored hscored embedding hembedding
    simp only [nodes, List.mem_cons, List.not_mem_nil, or_false] at hscored
    rcases hscored with rfl | rfl | rfl | rfl | rfl | rfl <;> cases hembedding
    exacts [cosine_isOk_iff.1 ⟨_, ha⟩, cosine_isOk_iff.1 ⟨_, hb⟩, cosine_isOk_iff.1 ⟨_, hc⟩,
      cosine_isOk_iff.1 ⟨_, he⟩, cosine_isOk_iff.1 ⟨_, hf⟩]
  have heligible : eligible vector (.int 0) nodes = [⟨a, .zero⟩, ⟨b, .ofInt 1⟩, ⟨c, .zero⟩] := by
    have hscored : nodes.filterMap (scored? vector) =
        [⟨a, .zero⟩, ⟨b, .ofInt 1⟩, ⟨c, .zero⟩, ⟨e, .ofInt (-1)⟩, ⟨f, .nan⟩] := by
      simp only [nodes, List.filterMap_cons, scored?, score?, a, b, c, d, e, f, node,
        Option.bind_some, Option.bind_none, ha, hb, hc, he, hf]
      rfl
    have hzero : Double.zero ≠ .nan ∧ Number.int 0 ≤ .float .zero := by decide +kernel
    have hone : Double.ofInt 1 ≠ .nan ∧ Number.int 0 ≤ .float (.ofInt 1) := by decide +kernel
    have hbelow : ¬ Number.int 0 ≤ .float (.ofInt (-1)) := by decide +kernel
    simp [eligible, hscored, hzero, hone, hbelow]
  have hranking : Ranking [⟨a, .zero⟩, ⟨b, .ofInt 1⟩, ⟨c, .zero⟩]
      [⟨b, .ofInt 1⟩, ⟨a, .zero⟩, ⟨c, .zero⟩] := by
    have hequal : (Double.zero.compare? .zero = some .eq) := by decide +kernel
    have hone : (Double.ofInt 1).compare? (.ofInt 1) = some .eq := by decide +kernel
    have habove : (Double.ofInt 1).compare? .zero = some .gt := by decide +kernel
    have hbelow : Double.zero.compare? (.ofInt 1) = some .lt := by decide +kernel
    have hdescends : ¬ Double.ofInt 1 < .zero ∧ ¬ Double.zero < .zero := by decide +kernel
    refine ⟨.swap _ _ _, by simp [hdescends], ?_⟩
    simp [Scored.Ties, hequal, hone, habove, hbelow]
  have hlimit : (0 : Int) ≤ 2 := by decide
  have hnegative : (-1 : Int) < 0 := by decide
  obtain ⟨best, rest, hrank, hunique, hlength, -⟩ :=
    (rank_exact vector nodes 2 (.int 0)).2.2 hlimit hcompares
  rw [heligible] at hunique hlength
  have hbest : best = [⟨b, .ofInt 1⟩, ⟨a, .zero⟩] := by
    have htake : (best ++ rest).take best.length = best := List.take_left
    rw [← htake, ← (hunique _).1 hranking, hlength]
    rfl
  exact ⟨hlimit, hcompares, hnegative, hbest ▸ hrank,
    (rank_exact vector nodes (-1) (.int 0)).1 hnegative⟩

end Similarity

end PropertyGraph
