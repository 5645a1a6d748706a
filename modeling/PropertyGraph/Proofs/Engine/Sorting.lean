import PropertyGraph.Engine.Evaluate
import PropertyGraph.Proofs.RunSort.Sort
import PropertyGraph.Proofs.Value.Order

/-!
Sorted nodes. Sorting never loses a node or makes one up. Where the values of the field are
comparable with each other it puts them in order, and nodes of equal values stay as they were, in
descending order no less than in ascending order.
-/

namespace PropertyGraph

namespace SortOrder

/-- The first value stands before the second in the order. -/
def before : SortOrder → Value → Value → Bool
  | .asc => Value.less
  | .desc => Value.greater

/-- The first value is at most the second in the order. -/
def Le : SortOrder → Value → Value → Prop
  | .asc => Value.AtMost
  | .desc => fun a b => b.AtMost a

/-- Either order sorts values that are comparable with each other. -/
theorem orders_before (order : SortOrder) {S : Value → Prop}
    (hS : ∀ a b, S a → S b → a.Comparable b) :
    RunSort.Orders order.before order.Le S := by
  cases order with
  | asc =>
      exact ⟨Value.less_iff_not_atMost hS, Value.atMost_total hS,
        fun ha _ hc => Value.atMost_trans hS ha hc⟩
  | desc =>
      exact ⟨Value.greater_iff_not_atMost hS, fun ha hb => Value.atMost_total hS hb ha,
        fun ha _ hc hab hbc => Value.atMost_trans hS hc ha hbc hab⟩

end SortOrder

namespace Sorting

/-- The value of the first node is not larger than that of the second, or not smaller in descending
order. -/
def InOrder (s : Sorting) (a b : Node) : Prop :=
  match s.order with
  | .asc => (a.property s.field).AtMost (b.property s.field)
  | .desc => (b.property s.field).AtMost (a.property s.field)

/-- The value of each node is comparable with that of each. -/
def ComparesAll (s : Sorting) (nodes : List Node) : Prop :=
  ∀ a ∈ nodes, ∀ b ∈ nodes, (a.property s.field).Comparable (b.property s.field)

/-- All values are numbers other than NaN, or all are texts, or all are dates. -/
def OneKind (s : Sorting) (nodes : List Node) : Prop :=
  (∀ a ∈ nodes, ∃ n, (a.property s.field).numeric? = some n ∧ n.place?.isSome = true) ∨
    (∀ a ∈ nodes, ∃ t, a.property s.field = .str t) ∨
    ∀ a ∈ nodes, ∃ d, a.property s.field = .date d

theorem comparesAll_of_oneKind {s : Sorting} {nodes : List Node} (h : s.OneKind nodes) :
    s.ComparesAll nodes := by
  intro a ha b hb
  rcases h with h | h | h
  · obtain ⟨m, hm, hplace⟩ := h a ha
    obtain ⟨n, hn, hplace'⟩ := h b hb
    exact Value.comparable_of_numeric? hm hn hplace hplace'
  · obtain ⟨t, ht⟩ := h a ha
    obtain ⟨u, hu⟩ := h b hb
    rw [ht, hu]
    exact Value.comparable_str t u
  · obtain ⟨d, hd⟩ := h a ha
    obtain ⟨e, he⟩ := h b hb
    rw [hd, he]
    exact Value.comparable_date d e

theorem precedes_eq (s : Sorting) :
    s.precedes = fun a b => s.order.before (a.property s.field) (b.property s.field) := by
  unfold precedes
  cases s.order <;> rfl

theorem inOrder_eq (s : Sorting) :
    s.InOrder = fun a b => s.order.Le (a.property s.field) (b.property s.field) := by
  unfold InOrder
  cases s.order <;> rfl

section

variable {s : Sorting} {nodes : List Node} (h : s.ComparesAll nodes)

include h

theorem comparable_of_mem (v w : Value) (hv : ∃ a ∈ nodes, a.property s.field = v)
    (hw : ∃ a ∈ nodes, a.property s.field = w) : v.Comparable w := by
  obtain ⟨a, ha, rfl⟩ := hv
  obtain ⟨b, hb, rfl⟩ := hw
  exact h a ha b hb

/-- The comparison of either direction comes from an order of the nodes. -/
theorem orders_precedes : RunSort.Orders s.precedes s.InOrder (· ∈ nodes) := by
  have horders := (s.order.orders_before (comparable_of_mem h)).comap
    (fun node : Node => node.property s.field) fun a (ha : a ∈ nodes) => ⟨a, ha, rfl⟩
  rwa [← precedes_eq, ← inOrder_eq] at horders

/-- Nodes whose values equal that of a third are in order either way round. -/
theorem inOrder_of_equal {a b c : Node} (ha : a ∈ nodes) (hb : b ∈ nodes) (hc : c ∈ nodes)
    (hac : (a.property s.field).equal (c.property s.field) = true)
    (hbc : (b.property s.field).equal (c.property s.field) = true) : s.InOrder a b := by
  have hS := comparable_of_mem h
  have hcb := Value.atMost_of_equal hS ⟨b, hb, rfl⟩ ⟨c, hc, rfl⟩ hbc
  have hca := Value.atMost_of_equal hS ⟨a, ha, rfl⟩ ⟨c, hc, rfl⟩ hac
  rw [InOrder]
  split
  · exact Value.atMost_trans hS ⟨a, ha, rfl⟩ ⟨b, hb, rfl⟩ (.inr hac) hcb
  · exact Value.atMost_trans hS ⟨b, hb, rfl⟩ ⟨a, ha, rfl⟩ (.inr hbc) hca

end

/-- Sorting keeps the nodes, whatever their values. If each of the values is comparable with each,
as numbers, texts or dates are, the nodes are in order afterwards, and those whose values equal any
one of them are among each other as they were before. -/
theorem sort_in_order_and_stable (s : Sorting) (nodes : List Node) :
    (s.sort nodes).Perm nodes ∧ (s.OneKind nodes → s.ComparesAll nodes) ∧
      (s.ComparesAll nodes → (s.sort nodes).Pairwise s.InOrder ∧ ∀ a ∈ nodes,
        (s.sort nodes).filter (fun b => (b.property s.field).equal (a.property s.field)) =
          nodes.filter fun b => (b.property s.field).equal (a.property s.field)) := by
  refine ⟨RunSort.sort_perm s.precedes nodes, comparesAll_of_oneKind, fun h => ?_⟩
  obtain ⟨hsorted, hstable⟩ :=
    RunSort.sort_spec (orders_precedes h) fun a (ha : a ∈ nodes) => ha
  exact ⟨hsorted, fun a ha => hstable _ fun b c hb hc => inOrder_of_equal h hb hc ha⟩

/-- Descending by rank, where true counts as one: of equal ranks the first comes first. -/
theorem sort_of_equal_ranks :
    let s : Sorting := { field := "rank", order := .desc }
    let node (id : String) (rank : Value) : Node :=
      { id := .str id, type := "t", properties := .ofList [("rank", rank)] }
    let nodes := [node "a" (.int 1), node "b" (.int 2), node "c" (.bool true), node "d" (.int 2)]
    s.OneKind nodes ∧ s.ComparesAll nodes ∧ (s.sort nodes).Perm nodes ∧
      (s.sort nodes).Pairwise s.InOrder ∧
      (s.sort nodes).filter (fun b => (b.property "rank").equal (.int 1)) =
        [node "a" (.int 1), node "c" (.bool true)] := by
  intro s node nodes
  have hnumbers : s.OneKind nodes := by
    refine .inl fun a ha => ?_
    simp only [nodes, List.mem_cons, List.not_mem_nil, or_false] at ha
    rcases ha with rfl | rfl | rfl | rfl <;> exact ⟨_, rfl, rfl⟩
  obtain ⟨hperm, hcompares, hsorts⟩ := sort_in_order_and_stable s nodes
  obtain ⟨hsorted, hstable⟩ := hsorts (hcompares hnumbers)
  exact ⟨hnumbers, hcompares hnumbers, hperm, hsorted,
    hstable (node "a" (.int 1)) List.mem_cons_self⟩

end Sorting

end PropertyGraph
