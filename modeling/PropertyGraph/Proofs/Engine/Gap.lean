import Mathlib.Data.List.TakeWhile
import Mathlib.Tactic.TFAE
import PropertyGraph.Proofs.Engine.Sorting

/-!
Sorting nodes of which some lack the field. A missing value is a tie with every value, so that nodes
on both sides of it need not be compared with each other: the nodes that have the field are put in
order wherever they stand together, and need not be where one that lacks it stands between them.
-/

namespace PropertyGraph

namespace Value

theorem isNull_iff {v : Value} : v.isNull = true ↔ v = .null := by
  cases v <;> simp [isNull]

theorem null_relate (v : Value) : null.relate v = .error (.kinds null.kind v.kind) := by
  cases v <;> rfl

theorem relate_null (v : Value) : v.relate null = .error (.kinds v.kind null.kind) := by
  cases v <;> rfl

end Value

namespace Sorting

/-- The node has the field that is sorted by. -/
def has (s : Sorting) (node : Node) : Bool := !(node.property s.field).isNull

/-- Something is missing between two that are there. -/
def HasGap (having : List Bool) : Prop :=
  ∃ front back, having = front ++ false :: back ∧ true ∈ front ∧ true ∈ back

theorem hasGap_iff {having : List Bool} :
    HasGap having ↔ ∃ i < having.length, having[i]? = some false ∧
      true ∈ having.take i ∧ true ∈ having.drop (i + 1) := by
  constructor
  · rintro ⟨front, back, rfl, hfront, hback⟩
    exact ⟨front.length, by simp, by simp, by simpa using hfront, by simpa using hback⟩
  · rintro ⟨i, hi, hget, hfront, hback⟩
    refine ⟨having.take i, having.drop (i + 1), ?_, hfront, hback⟩
    rw [List.getElem?_eq_getElem hi] at hget
    rw [← Option.some.inj hget, ← List.drop_eq_getElem_cons hi, List.take_append_drop]

instance (having : List Bool) : Decidable (HasGap having) := decidable_of_iff' _ hasGap_iff

variable {s : Sorting} {nodes before within after : List Node}

theorem precedes_of_lacking {a b : Node} (h : s.has a = false ∨ s.has b = false) :
    s.precedes a b = false := by
  simp only [has, Bool.not_eq_false', Value.isNull_iff] at h
  unfold precedes Value.less Value.greater
  rcases h with h | h
  · rw [h, Value.null_relate]
    cases s.order <;> rfl
  · rw [h, Value.relate_null]
    cases s.order <;> rfl

theorem filter_has_of_lacking (h : ∀ a ∈ nodes, s.has a = false) : nodes.filter s.has = [] :=
  List.filter_eq_nil_iff.2 fun a ha => by simp [h a ha]

/-- A list begins with elements that pass a test, up to the first that fails it. -/
theorem exists_front (p : Node → Bool) (nodes : List Node) :
    ∃ front back, nodes = front ++ back ∧ (∀ a ∈ front, p a = true) ∧
      ∀ a rest, back = a :: rest → p a = false := by
  refine ⟨nodes.takeWhile p, nodes.dropWhile p, List.takeWhile_append_dropWhile.symm,
    fun a ha => List.mem_takeWhile_imp ha, fun a rest hback => ?_⟩
  have hhead := List.head?_dropWhile_not p nodes
  rw [hback] at hhead
  simpa using hhead

/-- Without a gap the nodes that have the field stand together. -/
theorem exists_together (h : ¬ HasGap (nodes.map s.has)) :
    ∃ before within after, nodes = before ++ within ++ after ∧
      (∀ a ∈ before, s.has a = false) ∧ (∀ a ∈ within, s.has a = true) ∧
      ∀ a ∈ after, s.has a = false := by
  obtain ⟨before, rest, rfl, hbefore, hfirst⟩ := exists_front (!s.has ·) nodes
  obtain ⟨within, after, rfl, hwithin, hlast⟩ := exists_front s.has rest
  refine ⟨before, within, after, by simp, fun a ha => by simpa using hbefore a ha, hwithin,
    fun a ha => ?_⟩
  cases after with
  | nil => cases ha
  | cons last after =>
      rcases List.mem_cons.1 ha with rfl | ha
      · exact hlast a after rfl
      cases within with
      | nil => cases (hlast last after rfl).symm.trans (by simpa using hfirst last after rfl)
      | cons first within =>
          -- Both the first node of the middle part and this one would be beside a gap.
          refine Bool.eq_false_iff.2 fun hhas => h ⟨(before ++ first :: within).map s.has,
            after.map s.has, ?_, ?_, List.mem_map.2 ⟨a, ha, hhas⟩⟩
          · simp [hlast last after rfl]
          · simp [hwithin first List.mem_cons_self]

/-- The nodes of a list in three parts, each with the number of its part. -/
def inParts (before within after : List Node) : List (Nat × Node) :=
  before.map (0, ·) ++ within.map (1, ·) ++ after.map (2, ·)

theorem map_snd_inParts (before within after : List Node) :
    (inParts before within after).map Prod.snd = before ++ within ++ after := by
  simp [inParts, Function.comp_def]

theorem mem_inParts {p : Nat × Node} :
    p ∈ inParts before within after ↔
      p.1 = 0 ∧ p.2 ∈ before ∨ p.1 = 1 ∧ p.2 ∈ within ∨ p.1 = 2 ∧ p.2 ∈ after := by
  obtain ⟨part, node⟩ := p
  simp only [inParts, List.mem_append, List.mem_map, Prod.mk.injEq, exists_eq_right_right]
  constructor
  · rintro ((⟨h, rfl⟩ | ⟨h, rfl⟩) | ⟨h, rfl⟩) <;> simp [h]
  · rintro (⟨rfl, h⟩ | ⟨rfl, h⟩ | ⟨rfl, h⟩) <;> simp [h]

theorem mem_within {p : Nat × Node} (hp : p ∈ inParts before within after) (hpart : p.1 = 1) :
    p.2 ∈ within := by
  simpa [hpart] using mem_inParts.1 hp

theorem pairwise_inParts (before within after : List Node) :
    (inParts before within after).Pairwise fun p q => p.1 ≤ q.1 := by
  have hpart (part : Nat) (nodes : List Node) :
      (nodes.map (part, ·)).Pairwise fun p q => p.1 ≤ q.1 :=
    List.pairwise_map.2 (List.pairwise_of_forall fun _ _ => Nat.le_refl part)
  simp only [inParts, List.pairwise_append, hpart, true_and, List.mem_append, List.mem_map]
  refine ⟨?_, ?_⟩
  · rintro _ ⟨a, -, rfl⟩ _ ⟨b, -, rfl⟩
    exact Nat.zero_le 1
  · rintro _ (⟨a, -, rfl⟩ | ⟨a, -, rfl⟩) _ ⟨b, -, rfl⟩
    · exact Nat.zero_le 2
    · exact Nat.le_succ 1

section

variable (hbefore : ∀ a ∈ before, s.has a = false) (hwithin : ∀ a ∈ within, s.has a = true)
  (hafter : ∀ a ∈ after, s.has a = false)

include hbefore hwithin hafter

theorem has_iff_of_mem_inParts {p : Nat × Node} (hp : p ∈ inParts before within after) :
    s.has p.2 = true ↔ p.1 = 1 := by
  rcases mem_inParts.1 hp with ⟨hpart, hnode⟩ | ⟨hpart, hnode⟩ | ⟨hpart, hnode⟩
  · simp [hpart, hbefore _ hnode]
  · simp [hpart, hwithin _ hnode]
  · simp [hpart, hafter _ hnode]

/-- The nodes of one part are ordered by the comparison: those that lack the field are all tied. -/
theorem orders_part (hcompares : s.ComparesAll within) (part : Nat) :
    RunSort.Orders (fun p q : Nat × Node => s.precedes p.2 q.2)
      (fun p q => s.precedes q.2 p.2 = false)
      fun p => p ∈ inParts before within after ∧ p.1 = part := by
  by_cases hpart : part = 1
  · subst hpart
    exact ((orders_precedes hcompares).comap Prod.snd fun _ hp => mem_within hp.1 hp.2).ofLess
  · refine .of_not_less fun p q hp _ => precedes_of_lacking (.inl ?_)
    rw [Bool.eq_false_iff, Ne, has_iff_of_mem_inParts hbefore hwithin hafter hp.1]
    exact fun h => hpart (hp.2.symm.trans h)

end

/-- Without a gap the nodes that have the field are put in order: no comparison of the sort shows that
those which lack it do not belong before them and behind them. -/
theorem sort_of_not_hasGap (hgap : ¬ HasGap (nodes.map s.has))
    (hcompares : s.ComparesAll (nodes.filter s.has)) :
    ((s.sort nodes).filter s.has).Pairwise s.InOrder := by
  obtain ⟨before, within, after, rfl, hbefore, hwithin, hafter⟩ := exists_together hgap
  have hpresent : (before ++ within ++ after).filter s.has = within := by
    rw [List.filter_append, List.filter_append, filter_has_of_lacking hbefore,
      filter_has_of_lacking hafter, List.filter_eq_self.2 hwithin, List.nil_append,
      List.append_nil]
  rw [hpresent] at hcompares
  let less (p q : Nat × Node) : Bool :=
    decide (p.1 < q.1) || decide (p.1 = q.1) && s.precedes p.2 q.2
  have hhas {p : Nat × Node} (hp : p ∈ inParts before within after) :=
    has_iff_of_mem_inParts hbefore hwithin hafter hp
  have hagrees : (inParts before within after).Pairwise
      (RunSort.Agrees s.precedes Prod.snd less) := by
    refine (pairwise_inParts before within after).imp_of_mem fun {p q} hp hq hpq => ?_
    rcases Nat.eq_or_lt_of_le hpq with heq | hlt
    · simp [RunSort.Agrees, less, heq]
    · have hlacking : s.has q.2 = false ∨ s.has p.2 = false := by
        by_contra hboth
        rw [not_or, Bool.not_eq_false, Bool.not_eq_false, hhas hp, hhas hq] at hboth
        omega
      simp [RunSort.Agrees, less, precedes_of_lacking hlacking, Nat.ne_of_gt hlt, Nat.lt_asymm hlt]
  have hsorted := RunSort.pairwise_sort (RunSort.Orders.grouped Prod.fst
    (orders_part hbefore hwithin hafter hcompares)) fun p hp => hp
  rw [sort, ← map_snd_inParts, RunSort.sort_map hagrees, List.filter_map, List.pairwise_map]
  refine (hsorted.filter _).imp_of_mem fun {p q} hp hq hpq => ?_
  obtain ⟨hp, hhasp⟩ := List.mem_filter.1 hp
  obtain ⟨hq, hhasq⟩ := List.mem_filter.1 hq
  rw [(RunSort.sort_perm _ _).mem_iff] at hp hq
  have hpart := (hhas hp).1 hhasp
  have hpart' := (hhas hq).1 hhasq
  have hle : s.precedes q.2 p.2 = false := (hpq.resolve_left (by omega)).2
  exact ((orders_precedes hcompares).le_iff (mem_within hp hpart) (mem_within hq hpart')).2 hle

/-- A node with a number in the field, or without the field. -/
def ranked (s : Sorting) (rank : Int) (present : Bool) : Node :=
  { id := .int rank, type := "ranked"
    properties := if present then .ofList [(s.field, .int rank)] else ∅ }

theorem property_ranked (s : Sorting) (rank : Int) (present : Bool) :
    (s.ranked rank present).property s.field = if present then .int rank else .null := by
  cases present <;> simp [ranked, Node.property, OrderedMap.ofList]

theorem has_ranked (s : Sorting) (rank : Int) (present : Bool) :
    s.has (s.ranked rank present) = present := by
  rw [has, property_ranked]
  cases present <;> rfl

/-- Nodes on both sides of a gap, of one rank before it and of another one behind it. -/
def besideGap (s : Sorting) (m n : Int) (front back : List Bool) : List Node :=
  front.map (s.ranked m) ++ s.ranked 0 false :: back.map (s.ranked n)

section

variable {m n : Int} {front back : List Bool}

theorem map_has_besideGap : (s.besideGap m n front back).map s.has = front ++ false :: back := by
  have hhas (rank : Int) (presences : List Bool) :
      (presences.map (s.ranked rank)).map s.has = presences := by
    simp [Function.comp_def, has_ranked]
  rw [besideGap, List.map_append, List.map_cons, hhas, hhas, has_ranked]

theorem oneKind_besideGap : s.OneKind ((s.besideGap m n front back).filter s.has) := by
  refine .inl fun a ha => ?_
  obtain ⟨hmem, hpresent⟩ := List.mem_filter.1 ha
  obtain ⟨rank, present, rfl⟩ : ∃ rank present, a = s.ranked rank present := by
    simp only [besideGap, List.mem_append, List.mem_cons, List.mem_map] at hmem
    rcases hmem with ⟨present, -, rfl⟩ | rfl | ⟨present, -, rfl⟩ <;> exact ⟨_, _, rfl⟩
  rw [has_ranked] at hpresent
  rw [property_ranked, if_pos hpresent]
  exact ⟨_, rfl, rfl⟩

/-- Among equal ranks nothing precedes anything. -/
theorem precedes_ranked {rank : Int} (hself : s.order.before (.int rank) (.int rank) = false)
    (present other : Bool) :
    s.precedes (s.ranked rank present) (s.ranked rank other) = false := by
  cases present with
  | false => exact precedes_of_lacking (.inl (has_ranked s rank false))
  | true =>
      cases other with
      | false => exact precedes_of_lacking (.inr (has_ranked s rank false))
      | true =>
          rw [precedes_eq]
          simpa [property_ranked] using hself

theorem isChain_ranked {rank : Int} (hself : s.order.before (.int rank) (.int rank) = false)
    (presences : List Bool) :
    (presences.map (s.ranked rank)).IsChain fun y x => s.precedes x y = false :=
  (List.pairwise_map.2 (List.pairwise_of_forall fun y x => precedes_ranked hself x y)).isChain

/-- Beside a gap no node precedes the one before it, so that the sort finds nothing to do. -/
theorem sort_besideGap (hm : s.order.before (.int m) (.int m) = false)
    (hn : s.order.before (.int n) (.int n) = false) :
    s.sort (s.besideGap m n front back) = s.besideGap m n front back := by
  have hlacking : s.has (s.ranked 0 false) = false := has_ranked s 0 false
  refine RunSort.sort_of_isChain (List.isChain_append.2 ⟨isChain_ranked hm front, ?_, ?_⟩)
  · exact (isChain_ranked hn back).cons fun x _ => precedes_of_lacking (.inr hlacking)
  · intro y _ x hx
    obtain rfl := Option.some.inj hx
    exact precedes_of_lacking (.inl hlacking)

/-- A node on one side of the gap is before each on the other side. -/
theorem inOrder_of_besideGap
    (hsorted : ((s.besideGap m n front back).filter s.has).Pairwise s.InOrder)
    (hfront : true ∈ front) (hback : true ∈ back) : s.order.Le (.int m) (.int n) := by
  have hmem (rank : Int) {presences : List Bool} (h : true ∈ presences) :
      s.ranked rank true ∈ (presences.map (s.ranked rank)).filter s.has :=
    List.mem_filter.2 ⟨List.mem_map_of_mem h, has_ranked s rank true⟩
  rw [besideGap, List.filter_append, List.filter_cons_of_neg (by simp [has_ranked])] at hsorted
  have hinOrder := (List.pairwise_append.1 hsorted).2.2 _ (hmem m hfront) _ (hmem n hback)
  rw [inOrder_eq] at hinOrder
  simpa [property_ranked] using hinOrder

end

/-- A gap keeps some numbers on its two sides out of order. -/
theorem exists_unsorted_of_hasGap (s : Sorting) {having : List Bool} (hgap : HasGap having) :
    ∃ nodes, nodes.map s.has = having ∧ s.OneKind (nodes.filter s.has) ∧
      ¬ ((s.sort nodes).filter s.has).Pairwise s.InOrder := by
  obtain ⟨front, back, rfl, hfront, hback⟩ := hgap
  obtain ⟨m, n, hmn, hm, hn⟩ : ∃ m n : Int, ¬ s.order.Le (.int m) (.int n) ∧
      s.order.before (.int m) (.int m) = false ∧ s.order.before (.int n) (.int n) = false := by
    cases s.order with
    | asc => exact ⟨1, 0, by rintro (h | h) <;> (cases h), rfl, rfl⟩
    | desc => exact ⟨0, 1, by rintro (h | h) <;> (cases h), rfl, rfl⟩
  refine ⟨s.besideGap m n front back, map_has_besideGap, oneKind_besideGap, fun hsorted => ?_⟩
  rw [sort_besideGap hm hn] at hsorted
  exact hmn (inOrder_of_besideGap hsorted hfront hback)

/-- The nodes that have the field are put in order, whatever their values, exactly where none that
lacks it stands between two of them. -/
theorem sort_in_order_tfae (s : Sorting) (having : List Bool) :
    List.TFAE [¬ HasGap having,
      ∀ nodes, nodes.map s.has = having → s.ComparesAll (nodes.filter s.has) →
        ((s.sort nodes).filter s.has).Pairwise s.InOrder,
      ∀ nodes, nodes.map s.has = having → s.OneKind (nodes.filter s.has) →
        ((s.sort nodes).filter s.has).Pairwise s.InOrder] := by
  tfae_have 1 → 2 := fun hgap nodes hhaving hcompares => by
    subst hhaving
    exact sort_of_not_hasGap hgap hcompares
  tfae_have 2 → 3 := fun h nodes hhaving hkind => h nodes hhaving (comparesAll_of_oneKind hkind)
  tfae_have 3 → 1 := fun h hgap => by
    obtain ⟨nodes, hhaving, hkind, hunsorted⟩ := exists_unsorted_of_hasGap s hgap
    exact hunsorted (h nodes hhaving hkind)
  tfae_finish

/-- Nodes without a rank before and behind all others do not disturb the order. -/
theorem sort_of_lacking_at_ends :
    let s : Sorting := { field := "rank", order := .desc }
    let node (id : String) (ranks : List Value) : Node :=
      { id := .str id, type := "t", properties := .ofList (ranks.map ("rank", ·)) }
    let nodes := [node "a" [], node "b" [.int 1], node "c" [.int 2], node "d" []]
    ¬ HasGap (nodes.map s.has) ∧ s.OneKind (nodes.filter s.has) ∧
      ((s.sort nodes).filter s.has).Pairwise s.InOrder := by
  intro s node nodes
  have hgap : ¬ HasGap (nodes.map s.has) := by decide
  have hkind : s.OneKind [node "b" [.int 1], node "c" [.int 2]] := by
    refine .inl fun a ha => ?_
    simp only [List.mem_cons, List.not_mem_nil, or_false] at ha
    rcases ha with rfl | rfl <;> exact ⟨_, rfl, rfl⟩
  have hiff := (sort_in_order_tfae s (nodes.map s.has)).out 0 2
  exact ⟨hgap, hkind, hiff.1 hgap nodes rfl hkind⟩

/-- A node without a rank between two others hides that they are out of order. -/
theorem sort_of_lacking_between :
    let s : Sorting := { field := "rank", order := .asc }
    let node (id : String) (ranks : List Value) : Node :=
      { id := .str id, type := "t", properties := .ofList (ranks.map ("rank", ·)) }
    let nodes := [node "a" [.int 2], node "b" [], node "c" [.int 1]]
    s.OneKind (nodes.filter s.has) ∧ ¬ ((s.sort nodes).filter s.has).Pairwise s.InOrder := by
  intro s node nodes
  refine ⟨.inl fun a ha => ?_, fun hsorted => ?_⟩
  · have ha : a ∈ [node "a" [.int 2], node "c" [.int 1]] := ha
    simp only [List.mem_cons, List.not_mem_nil, or_false] at ha
    rcases ha with rfl | rfl <;> exact ⟨_, rfl, rfl⟩
  · have hsort : s.sort nodes = nodes :=
      RunSort.sort_of_isChain (.cons_cons rfl (.cons_cons rfl (.singleton _)))
    have hsorted : [node "a" [.int 2], node "c" [.int 1]].Pairwise s.InOrder := by
      rwa [hsort] at hsorted
    rcases (List.pairwise_cons.1 hsorted).1 (node "c" [.int 1]) List.mem_cons_self with h | h <;>
      cases h

end Sorting

end PropertyGraph
