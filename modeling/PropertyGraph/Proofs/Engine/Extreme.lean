import PropertyGraph.Proofs.Engine.FirstLeast
import PropertyGraph.Proofs.Engine.Overflow
import PropertyGraph.Proofs.Engine.Sorting
import PropertyGraph.Proofs.Value.OrderClass

/-!
Least and greatest values. The scan over the values keeps a best one so far, which is of the class of
the first value as long as nothing fails: so it fails exactly if not all values are of one class,
wherever they stand. Without a NaN it ends with the first of the best values.
-/

namespace PropertyGraph

namespace SortOrder

/-- How a value must be related to one that stands after it. -/
def wanted : SortOrder → Ordering
  | .asc => .lt
  | .desc => .gt

theorem before_iff (order : SortOrder) {v w : Value} :
    order.before v w = true ↔ v.relate w = .ok (some order.wanted) := by
  cases order with
  | asc => exact Value.less_iff.trans (Value.order?_iff_relate (by decide))
  | desc => exact Value.greater_iff.trans (Value.order?_iff_relate (by decide))

end SortOrder

namespace Aggregation

variable {a : Aggregation} {symbol : String} {wanted : Ordering} {ofNone : Double}
  {values : List Value} {c d : Value.OrderClass}

theorem better_of_ok {best candidate : Value} {o? : Option Ordering}
    (h : candidate.relate best = .ok o?) :
    a.better symbol wanted best candidate =
      .ok (if o? = some wanted then candidate else best) := by
  rw [better, h]

/-- A candidate of the class of the best value is compared with it, and one of the two is kept. -/
theorem better_of_same {best candidate : Value} (hbest : best.orderClass? = some c)
    (hcandidate : candidate.orderClass? = some c) :
    ∃ v, a.better symbol wanted best candidate = .ok v ∧ v.orderClass? = some c := by
  obtain ⟨o?, ho⟩ := (Value.relate_isOk_iff hcandidate hbest).2 rfl
  refine ⟨_, better_of_ok ho, ?_⟩
  split
  · exact hcandidate
  · exact hbest

theorem better_of_other {best candidate : Value} (hbest : best.orderClass? = some c)
    (hcandidate : candidate.orderClass? = some d) (hne : d ≠ c) :
    ∃ e, a.better symbol wanted best candidate = .error e := by
  cases hrelate : candidate.relate best with
  | error mismatch => exact ⟨_, by rw [better, hrelate]⟩
  | ok o? => exact absurd ((Value.relate_isOk_iff hcandidate hbest).1 ⟨o?, hrelate⟩) hne

/-- The scan goes through exactly if all candidates are of the class of the first value. -/
theorem foldlM_better_isOk_iff {first : Value} (hfirst : first.orderClass? = some c)
    (hscalar : ∀ v ∈ values, v.orderClass?.isSome = true) :
    (∃ v, values.foldlM (a.better symbol wanted) first = .ok v) ↔
      ∀ v ∈ values, v.orderClass? = some c := by
  induction values generalizing first with
  | nil => exact iff_of_true ⟨first, rfl⟩ nofun
  | cons candidate rest ih =>
      obtain ⟨hcandidate, hrest⟩ := List.forall_mem_cons.1 hscalar
      obtain ⟨d, hd⟩ := Option.isSome_iff_exists.1 hcandidate
      rw [List.foldlM_cons, List.forall_mem_cons]
      by_cases hsame : d = c
      · subst hsame
        obtain ⟨best, hbest, hclass⟩ : ∃ best, a.better symbol wanted first candidate = .ok best ∧
            best.orderClass? = some d := better_of_same hfirst hd
        rw [hbest, and_iff_right hd, ← ih hclass hrest]
        rfl
      · obtain ⟨e, he⟩ : ∃ e, a.better symbol wanted first candidate = .error e :=
          better_of_other hfirst hd hsame
        rw [he]
        exact iff_of_false nofun fun h => hsame (Option.some.inj (hd.symm.trans h.1))

/-- A least or greatest value is found exactly if all values are of one class. -/
theorem extreme_isOk_iff (hscalar : ∀ v ∈ values, v.orderClass?.isSome = true) :
    (∃ v, a.extreme symbol wanted ofNone values = .ok v) ↔
      ∀ v ∈ values, ∀ w ∈ values, v.orderClass? = w.orderClass? := by
  cases values with
  | nil => exact iff_of_true ⟨_, rfl⟩ nofun
  | cons first rest =>
      obtain ⟨hfirst, hrest⟩ := List.forall_mem_cons.1 hscalar
      obtain ⟨c, hc⟩ := Option.isSome_iff_exists.1 hfirst
      refine (foldlM_better_isOk_iff hc hrest).trans ⟨fun h v hv w hw => ?_, fun h v hv => ?_⟩
      · have hall : ∀ v ∈ first :: rest, v.orderClass? = some c := List.forall_mem_cons.2 ⟨hc, h⟩
        exact (hall v hv).trans (hall w hw).symm
      · exact (h v (List.mem_cons_of_mem first hv) first List.mem_cons_self).trans hc

section

variable (order : SortOrder)
  (hvalues : ∀ v ∈ values, v.orderClass? = some c ∧ v.isNaN = false)

include hvalues

/-- The values of one class, NaN apart, are ones that either order sorts. -/
theorem orders_before_of_class :
    RunSort.Orders order.before order.Le (· ∈ values) :=
  order.orders_before fun _ _ hv hw => Value.comparable_of_orderClass?
    (hvalues _ hv).1 (hvalues _ hw).1 (hvalues _ hv).2 (hvalues _ hw).2

/-- A scan that holds the first of the best values so far ends with the first of the best of all. -/
theorem foldlM_better_firstLeast {held rest : List Value} {best : Value}
    (hsplit : values = held ++ rest) (hbest : FirstLeast order.Le held best) :
    ∃ v, rest.foldlM (a.better symbol order.wanted) best = .ok v ∧
      FirstLeast order.Le values v := by
  induction rest generalizing held best with
  | nil => exact ⟨best, rfl, by rwa [hsplit, List.append_nil]⟩
  | cons candidate rest ih =>
      have hcandidate : candidate ∈ values := by simp [hsplit]
      have hheld : best ∈ values := hsplit ▸ List.mem_append_left _ hbest.mem
      obtain ⟨o?, ho⟩ := (Value.relate_isOk_iff (hvalues _ hcandidate).1 (hvalues _ hheld).1).2 rfl
      have hbefore : order.before candidate best = true ↔ o? = some order.wanted := by
        rw [order.before_iff, ho, Except.ok.injEq]
      have hnext : FirstLeast order.Le (held ++ [candidate])
          (if o? = some order.wanted then candidate else best) := by
        simp only [← hbefore]
        refine hbest.concat (orders_before_of_class order hvalues) fun v hv => ?_
        rw [hsplit]
        simp only [List.mem_append, List.mem_singleton] at hv
        rcases hv with hv | rfl <;> simp [*]
      rw [List.foldlM_cons, better_of_ok ho]
      exact ih (by simp [hsplit]) hnext

/-- Of values of one class, none of them NaN, the first of the best is found. -/
theorem extreme_firstLeast (hne : values ≠ []) :
    ∃ v, a.extreme symbol order.wanted ofNone values = .ok v ∧
      FirstLeast order.Le values v := by
  cases values with
  | nil => exact absurd rfl hne
  | cons first rest =>
      have hself := (orders_before_of_class order hvalues).total
        (List.mem_cons_self (a := first)) List.mem_cons_self
      exact foldlM_better_firstLeast order hvalues rfl (.singleton (hself.elim id id))

end

/-- What the best of some scalars is: it has failed exactly if not all of them are of one class, and
then as a failure of the request; of none it is a limit, and of values without a NaN the first of
the best ones. -/
structure IsBest (le : Value → Value → Prop) (ofNone : Double) (values : List Value)
    (result : Except ExecutionError Value) : Prop where
  fails_iff : (∃ e, result = .error e) ↔
    ∃ v ∈ values, ∃ w ∈ values, v.orderClass? ≠ w.orderClass?
  reported : ∀ e, result = .error e → e.typeName? = some "ComputeFieldError"
  none : values = [] → result = .ok (.float ofNone)
  first : values ≠ [] → (∀ v ∈ values, ∀ w ∈ values, v.orderClass? = w.orderClass?) →
    (∀ v ∈ values, v.isNaN = false) → ∃ v, result = .ok v ∧ FirstLeast le values v

theorem extreme_isBest (order : SortOrder)
    (hscalar : ∀ v ∈ values, v.orderClass?.isSome = true) :
    IsBest order.Le ofNone values (a.extreme symbol order.wanted ofNone values) where
  fails_iff := by
    have hok : (∃ v, a.extreme symbol order.wanted ofNone values = .ok v) ↔
        ∀ v ∈ values, ∀ w ∈ values, v.orderClass? = w.orderClass? := extreme_isOk_iff hscalar
    cases hresult : a.extreme symbol order.wanted ofNone values with
    | error e =>
        rw [hresult] at hok
        have hnot := mt hok.2 nofun
        simp only [not_forall, exists_prop] at hnot
        exact iff_of_true ⟨e, rfl⟩ hnot
    | ok v =>
        refine iff_of_false nofun ?_
        rintro ⟨v, hv, w, hw, hne⟩
        exact hne (hok.1 ⟨_, hresult⟩ v hv w hw)
  reported e h := typeName?_of_extreme h
  none h := by rw [h, extreme]
  first hne hsame hnan := by
    obtain ⟨first, hfirst⟩ := List.exists_mem_of_ne_nil values hne
    obtain ⟨c, hc⟩ := Option.isSome_iff_exists.1 (hscalar first hfirst)
    exact extreme_firstLeast order
      (fun v hv => ⟨(hsame v hv first hfirst).trans hc, hnan v hv⟩) hne

/-- The least and the greatest value of a field over any nodes, where absent fields and null count
for nothing and all else is scalar. -/
theorem extremes_exact (field : String) (nodes : List Node)
    (hscalar : ∀ node ∈ nodes, (node.property field).isNull = false →
      (node.property field).orderClass?.isSome = true) :
    let values := (nodes.map (·.property field)).filter (!·.isNull)
    IsBest Value.AtMost (.infinite false) values (eval ⟨.min, some field⟩ nodes) ∧
      IsBest (fun v w => w.AtMost v) (.infinite true) values (eval ⟨.max, some field⟩ nodes) := by
  intro values
  have hvalues : ∀ v ∈ values, v.orderClass?.isSome = true := by
    intro v hv
    obtain ⟨hv, hnull⟩ := List.mem_filter.1 hv
    obtain ⟨node, hnode, rfl⟩ := List.mem_map.1 hv
    exact hscalar node hnode (by simpa using hnull)
  exact ⟨extreme_isBest .asc hvalues, extreme_isBest .desc hvalues⟩

/-- True is as small as one and comes before it. A time with an offset at the end of local times is
noticed, although it is compared with the best of them only. -/
theorem extremes_of_ties :
    let node (value : Value) : Node :=
      { id := .null, type := "t", properties := .ofList [("v", value)] }
    let ten (offset? : Option UtcOffset) : Value :=
      .dateTime ⟨⟨2024, 1, 31, by decide⟩, 10, 0, 0, 0, offset?, by decide⟩
    let numbers := [node (.int 2), { id := .null, type := "t" }, node (.bool true), node .null,
      node (.int 1)]
    let times := [node (ten none), node (ten none), node (ten (some .utc))]
    (∀ node ∈ numbers ++ times, (node.property "v").isNull = false →
        (node.property "v").orderClass?.isSome = true) ∧
      (∃ v, eval ⟨.min, some "v"⟩ numbers = .ok v ∧
        FirstLeast Value.AtMost [.int 2, .bool true, .int 1] v) ∧
      eval ⟨.min, some "v"⟩ numbers = .ok (.bool true) ∧
      ∃ e, eval ⟨.max, some "v"⟩ times = .error e ∧ e.typeName? = some "ComputeFieldError" := by
  intro node ten numbers times
  have hscalar : ∀ node ∈ numbers ++ times, (node.property "v").isNull = false →
      (node.property "v").orderClass?.isSome = true := by
    decide +kernel
  have hnumbers := extremes_exact "v" numbers fun node hnode =>
    hscalar node (List.mem_append_left _ hnode)
  have htimes := extremes_exact "v" times fun node hnode =>
    hscalar node (List.mem_append_right _ hnode)
  have hvalues : (times.map (·.property "v")).filter (!·.isNull) =
      [ten none, ten none, ten (some .utc)] := rfl
  obtain ⟨e, he⟩ := htimes.2.fails_iff.2
    ⟨ten none, by simp [hvalues], ten (some .utc), by simp [hvalues], by decide⟩
  exact ⟨hscalar, hnumbers.1.first nofun (by decide +kernel) (by decide +kernel), rfl, e, he,
    htimes.2.reported e he⟩

end Aggregation

end PropertyGraph
