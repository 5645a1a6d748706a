import Mathlib.Algebra.BigOperators.Group.List.Basic
import PropertyGraph.Proofs.Engine.Evaluate
import PropertyGraph.Proofs.Engine.Extreme
import PropertyGraph.Proofs.Engine.Found

/-!
Aggregates over integers. A sum of integers is exact and the best of them is one number, so that
these aggregates do not depend on the order of the nodes: a query that sums up what it finds answers
the same however it sorts, and fails the same.
-/

namespace PropertyGraph

namespace Value

/-- The integer that a value is. -/
def int? : Value → Option Int
  | .int n => some n
  | _ => none

theorem atMost_int_iff {m n : Int} : (int m).AtMost (int n) ↔ m ≤ n := by
  have horder : (int m).order? (int n) = some (compare m n) := order?_of_relate rfl
  rw [atMost_iff, horder]
  simp [Int.isLE_compare]

end Value

theorem SortOrder.int_antisymm (order : SortOrder) {m n : Int} (hmn : order.Le (.int m) (.int n))
    (hnm : order.Le (.int n) (.int m)) : m = n := by
  cases order with
  | asc => exact Int.le_antisymm (Value.atMost_int_iff.1 hmn) (Value.atMost_int_iff.1 hnm)
  | desc => exact Int.le_antisymm (Value.atMost_int_iff.1 hnm) (Value.atMost_int_iff.1 hmn)

namespace Aggregation

/-- The integers that an aggregate meets, in the order of the nodes. -/
def integers (a : Aggregation) (nodes : List Node) : List Int :=
  nodes.filterMap fun node => (a.valueOf node).int?

/-- What the aggregate meets is absent or an integer. -/
def MeetsIntegers (a : Aggregation) (nodes : List Node) : Prop :=
  ∀ node ∈ nodes, a.valueOf node = .null ∨ ∃ n, a.valueOf node = .int n

/-- The aggregate counts, or it meets nothing but integers. -/
def OverIntegers (a : Aggregation) (nodes : List Node) : Prop :=
  a.function = .count ∨ a.MeetsIntegers nodes

variable {a : Aggregation} {node : Node} {nodes others : List Node}

theorem integers_cons_of_null (h : a.valueOf node = .null) :
    a.integers (node :: nodes) = a.integers nodes :=
  List.filterMap_cons_none (by rw [h]; rfl)

theorem integers_cons_of_int {n : Int} (h : a.valueOf node = .int n) :
    a.integers (node :: nodes) = n :: a.integers nodes :=
  List.filterMap_cons_some (by rw [h]; rfl)

theorem integers_perm (h : nodes.Perm others) : (a.integers nodes).Perm (a.integers others) :=
  h.filterMap _

section

variable (h : a.MeetsIntegers nodes)

include h

theorem foldlM_addValue_of_integers (total : Int) :
    nodes.foldlM a.addValue (.int total) = .ok (.int (total + (a.integers nodes).sum)) := by
  induction nodes generalizing total with
  | nil => simp [integers]; rfl
  | cons node rest ih =>
      obtain ⟨hnode, hrest⟩ := List.forall_mem_cons.1 h
      rw [List.foldlM_cons]
      rcases hnode with hnull | ⟨n, hn⟩
      · have hstep : a.addValue (.int total) node = .ok (.int total) := by
          rw [addValue, hnull]; rfl
        rw [hstep, integers_cons_of_null hnull]
        exact ih hrest total
      · have hstep : a.addValue (.int total) node = .ok (.int (total + n)) := by
          rw [addValue, hn]; rfl
        rw [hstep, integers_cons_of_int hn, List.sum_cons, ← Int.add_assoc]
        exact ih hrest (total + n)

theorem sum_of_integers : a.sum nodes = .ok (.int (a.integers nodes).sum) := by
  rw [sum, foldlM_addValue_of_integers h, Int.zero_add]

theorem present_of_integers : a.present nodes = (a.integers nodes).map .int := by
  induction nodes with
  | nil => rfl
  | cons node rest ih =>
      obtain ⟨hnode, hrest⟩ := List.forall_mem_cons.1 h
      rcases hnode with hnull | ⟨n, hn⟩
      · rw [integers_cons_of_null hnull, ← ih hrest, present, List.map_cons, hnull]
        rfl
      · rw [integers_cons_of_int hn, List.map_cons, ← ih hrest, present, List.map_cons, hn]
        rfl

end

section

variable {symbol : String} {ofNone : Double} (order : SortOrder) {numbers rearranged : List Int}

theorem exists_extreme_int (hne : numbers ≠ []) :
    ∃ n ∈ numbers, a.extreme symbol order.wanted ofNone (numbers.map .int) = .ok (.int n) ∧
      ∀ m ∈ numbers, order.Le (.int n) (.int m) := by
  have hclass : ∀ v ∈ numbers.map Value.int, v.orderClass? = some .number ∧ v.isNaN = false :=
    List.forall_mem_map.2 fun _ _ => ⟨rfl, rfl⟩
  obtain ⟨v, hv, hbest⟩ : ∃ v, a.extreme symbol order.wanted ofNone (numbers.map .int) = .ok v ∧
      FirstLeast order.Le (numbers.map .int) v :=
    extreme_firstLeast order hclass (by simpa using hne)
  obtain ⟨n, hn, rfl⟩ := List.mem_map.1 hbest.mem
  exact ⟨n, hn, hv, List.forall_mem_map.1 hbest.least⟩

/-- The best of some integers is the same in any order of them. -/
theorem extreme_int_perm (h : numbers.Perm rearranged) :
    a.extreme symbol order.wanted ofNone (numbers.map .int) =
      a.extreme symbol order.wanted ofNone (rearranged.map .int) := by
  by_cases hempty : numbers = []
  · subst hempty
    rw [List.nil_perm.1 h]
  obtain ⟨m, hm, hbest, hleast⟩ := exists_extreme_int (a := a) order hempty
  obtain ⟨n, hn, hbest', hleast'⟩ :=
    exists_extreme_int (a := a) order fun hnil => hempty (List.perm_nil.1 (hnil ▸ h))
  rw [hbest, hbest', order.int_antisymm (hleast n (h.mem_iff.2 hn)) (hleast' m (h.mem_iff.1 hm))]

end

/-- An aggregate over integers is the same in any order of the nodes. -/
theorem eval_perm (h : a.OverIntegers nodes) (hperm : nodes.Perm others) :
    a.eval others = a.eval nodes := by
  rcases h with hcount | h
  · rw [eval, eval, hcount, hperm.length_eq]
  have hothers : a.MeetsIntegers others := fun node hnode => h node (hperm.mem_iff.2 hnode)
  have hsum : a.sum others = a.sum nodes := by
    rw [sum_of_integers h, sum_of_integers hothers, (integers_perm hperm).sum_eq]
  unfold eval mean
  rw [hsum, hperm.length_eq, hperm.isEmpty_eq, present_of_integers h, present_of_integers hothers]
  cases a.function with
  | min => exact (extreme_int_perm .asc (integers_perm hperm)).symm
  | max => exact (extreme_int_perm .desc (integers_perm hperm)).symm
  | _ => rfl

theorem evalAll_congr {entries : List (String × Aggregation)}
    (h : ∀ entry ∈ entries, entry.2.eval others = entry.2.eval nodes) :
    evalAll others entries = evalAll nodes entries := by
  induction entries with
  | nil => rfl
  | cons entry rest ih =>
      obtain ⟨hentry, hrest⟩ := List.forall_mem_cons.1 h
      rw [evalAll, evalAll, hentry, ih hrest]

/-- What the mean of some integers is: NaN without nodes, else their sum over the number of all
nodes. -/
def IsMean (a : Aggregation) (nodes : List Node) (mean : Double) : Prop :=
  (nodes = [] → mean = .nan) ∧
    (nodes ≠ [] → (Number.int (a.integers nodes).sum).divCount nodes.length = .ok mean)

/-- The integers have a mean: there are no nodes, or the quotient is in the range of floats. -/
def HasMean (a : Aggregation) (nodes : List Node) : Prop :=
  nodes = [] ∨ (a.integers nodes).sum.natAbs < nodes.length * Double.overflowThreshold

theorem exists_isMean_iff : (∃ mean, a.IsMean nodes mean) ↔ a.HasMean nodes := by
  cases nodes with
  | nil => exact iff_of_true ⟨.nan, fun _ => rfl, absurd rfl⟩ (.inl rfl)
  | cons node rest =>
      have hpos : 0 < (node :: rest).length := Nat.succ_pos rest.length
      have hne : node :: rest ≠ [] := List.cons_ne_nil node rest
      cases hdiv : (Number.int (a.integers (node :: rest)).sum).divCount (node :: rest).length with
      | error e =>
          obtain ⟨⟨n, hn, hle⟩, -⟩ := (Number.divCount_eq_error_iff hpos).1 hdiv
          rw [← Number.int.inj hn] at hle
          refine iff_of_false ?_ fun hlt => Nat.not_lt.2 hle (hlt.resolve_left hne)
          rintro ⟨mean, -, hmean⟩
          cases hdiv.symm.trans (hmean hne)
      | ok mean =>
          refine iff_of_true ⟨mean, (absurd · hne), fun _ => hdiv⟩ (.inr ?_)
          refine Nat.not_le.1 fun hle => ?_
          cases hdiv.symm.trans ((Number.divCount_eq_error_iff hpos).2 ⟨⟨_, rfl, hle⟩, rfl⟩)

theorem mean_ok_iff (h : a.MeetsIntegers nodes) {mean : Double} :
    a.mean nodes = .ok mean ↔ a.IsMean nodes mean := by
  have hmean : a.mean nodes = if nodes.isEmpty then .ok .nan
      else ((Number.int (a.integers nodes).sum).divCount nodes.length).mapError .arithmetic := by
    rw [Aggregation.mean, sum_of_integers h]
    rfl
  rw [hmean, IsMean]
  cases nodes with
  | nil => simp [eq_comm]
  | cons node rest => simp [mapError_eq_ok_iff]

theorem eval_sum_of_integers (h : a.OverIntegers nodes) (hfunction : a.function = .sum) :
    a.eval nodes = .ok (.int (a.integers nodes).sum) := by
  have hintegers := h.resolve_left (by simp [hfunction])
  rw [eval, hfunction, sum_of_integers hintegers]
  rfl

theorem eval_avg_of_integers (h : a.OverIntegers nodes) (hfunction : a.function = .avg)
    {v : Value} : a.eval nodes = .ok v ↔ ∃ mean, a.IsMean nodes mean ∧ v = .float mean := by
  have hintegers := h.resolve_left (by simp [hfunction])
  rw [eval, hfunction]
  simp only [← mean_ok_iff hintegers]
  cases a.mean nodes with
  | error e =>
      refine iff_of_false nofun ?_
      rintro ⟨mean, hmean, -⟩
      cases hmean
  | ok mean =>
      constructor
      · intro hv
        exact ⟨mean, rfl, (Except.ok.inj hv).symm⟩
      · rintro ⟨_, hmean, rfl⟩
        rw [Except.ok.inj hmean]
        rfl

/-- An aggregate over integers has a value, unless it is a mean out of the range of floats. -/
theorem eval_isOk_iff (h : a.OverIntegers nodes) :
    (∃ v, a.eval nodes = .ok v) ↔ (a.function = .avg → a.HasMean nodes) := by
  cases hfunction : a.function with
  | count => exact iff_of_true ⟨_, by rw [eval, hfunction]⟩ nofun
  | sum => exact iff_of_true ⟨_, eval_sum_of_integers h hfunction⟩ nofun
  | avg =>
      rw [← exists_isMean_iff]
      simp [eval_avg_of_integers h hfunction]
  | min | max =>
      have hintegers := h.resolve_left (by simp [hfunction])
      refine iff_of_true ?_ nofun
      rw [eval, hfunction, present_of_integers hintegers]
      exact (extreme_isOk_iff (List.forall_mem_map.2 fun _ _ => rfl)).2
        (List.forall_mem_map.2 fun _ _ => List.forall_mem_map.2 fun _ _ => rfl)

end Aggregation

namespace Query

variable {q : Query} {nodes : List Node}

/-- Without a limit the found nodes are only rearranged, which aggregates over integers do not
notice. -/
theorem answerOver_eq_present (hactive : q.aggregations.isEmpty = false) (hlimit : q.limit = none)
    (hintegers : ∀ name a, q.aggregations.get? name = some a → a.OverIntegers nodes) :
    q.answerOver nodes = q.present nodes := by
  have hperm : nodes.Perm (q.sorting.elim nodes fun s => s.sort nodes) := by
    cases q.sorting with
    | none => exact .refl nodes
    | some s => exact (RunSort.sort_perm s.precedes nodes).symm
  have heval : ∀ entry ∈ q.aggregations.entries, entry.2.eval
      (q.sorting.elim nodes fun s => s.sort nodes) = entry.2.eval nodes := fun entry hentry =>
    Aggregation.eval_perm (hintegers _ _ (OrderedMap.get?_eq_some_iff.2 hentry)) hperm
  rw [answerOver, hlimit, Option.elim_none, present, present, hactive,
    Aggregation.evalAll_congr heval]
  rfl

theorem present_ok_iff (hactive : q.aggregations.isEmpty = false) {answer : Answer} :
    q.present nodes = .ok answer ↔ ∃ columns,
      Aggregation.evalAll nodes q.aggregations.entries = .ok columns ∧
        answer = .summary (.ofList columns) := by
  rw [present, hactive, if_neg Bool.false_ne_true]
  cases Aggregation.evalAll nodes q.aggregations.entries with
  | error e => exact iff_of_false nofun nofun
  | ok columns =>
      constructor
      · intro h
        exact ⟨columns, rfl, (Except.ok.inj h).symm⟩
      · rintro ⟨_, hcolumns, rfl⟩
        obtain rfl := Except.ok.inj hcolumns
        rfl

/-- Over integers all is summed up unless a mean is out of the range of floats. -/
theorem present_isOk_iff (hactive : q.aggregations.isEmpty = false)
    (hintegers : ∀ name a, q.aggregations.get? name = some a → a.OverIntegers nodes) :
    (∃ answer, q.present nodes = .ok answer) ↔
      ∀ name a, q.aggregations.get? name = some a → a.function = .avg → a.HasMean nodes := by
  have hcolumns : (∃ answer, q.present nodes = .ok answer) ↔
      ∃ columns, Aggregation.evalAll nodes q.aggregations.entries = .ok columns := by
    simp only [present_ok_iff hactive]
    exact ⟨fun ⟨_, columns, hcolumns, _⟩ => ⟨columns, hcolumns⟩,
      fun ⟨columns, hcolumns⟩ => ⟨_, columns, hcolumns, rfl⟩⟩
  rw [hcolumns, Aggregation.evalAll_isOk_iff]
  constructor
  · intro h name a hget
    exact (Aggregation.eval_isOk_iff (hintegers name a hget)).1
      (h (name, a) (OrderedMap.get?_eq_some_iff.1 hget))
  · intro h entry hentry
    have hget := OrderedMap.get?_eq_some_iff.2 hentry
    exact (Aggregation.eval_isOk_iff (hintegers _ _ hget)).2 (h _ _ hget)

/-- What a summary shows under a name is the value of the aggregate of that name. -/
theorem get?_ofList_evalAll {columns : List (String × Value)}
    (h : Aggregation.evalAll nodes q.aggregations.entries = .ok columns) {name : String}
    {a : Aggregation} (hget : q.aggregations.get? name = some a) :
    ∃ v, a.eval nodes = .ok v ∧ (OrderedMap.ofList columns).get? name = some v := by
  obtain ⟨v, hv⟩ :=
    Aggregation.evalAll_isOk_iff.1 ⟨columns, h⟩ _ (OrderedMap.get?_eq_some_iff.1 hget)
  have hdistinct : (columns.map Prod.fst).Nodup := by
    rw [Aggregation.keys_evalAll h]
    exact q.aggregations.distinct
  have hentry : (q.aggregations.entries.find? (·.1 = name)).map Prod.snd = some a := hget
  refine ⟨v, hv, ?_⟩
  rw [OrderedMap.get?_ofList hdistinct, Aggregation.find?_evalAll h, hentry, Option.bind_some, hv]
  rfl

/-- The columns of a summary hold the sums and means of the integers that the aggregates meet. -/
structure SumsUp (q : Query) (nodes : List Node) (columns : OrderedMap String Value) : Prop where
  sum : ∀ name a, q.aggregations.get? name = some a → a.function = .sum →
    columns.get? name = some (.int (a.integers nodes).sum)
  mean : ∀ name a, q.aggregations.get? name = some a → a.function = .avg →
    ∃ mean, columns.get? name = some (.float mean) ∧ a.IsMean nodes mean

theorem sumsUp_of_evalAll
    (hintegers : ∀ name a, q.aggregations.get? name = some a → a.OverIntegers nodes)
    {columns : List (String × Value)}
    (h : Aggregation.evalAll nodes q.aggregations.entries = .ok columns) :
    q.SumsUp nodes (.ofList columns) where
  sum name a hget hfunction := by
    obtain ⟨v, heval, hcolumn⟩ := get?_ofList_evalAll h hget
    rw [Aggregation.eval_sum_of_integers (hintegers name a hget) hfunction] at heval
    rw [hcolumn, ← Except.ok.inj heval]
  mean name a hget hfunction := by
    obtain ⟨v, heval, hcolumn⟩ := get?_ofList_evalAll h hget
    obtain ⟨mean, hmean, rfl⟩ :=
      (Aggregation.eval_avg_of_integers (hintegers name a hget) hfunction).1 heval
    exact ⟨mean, hcolumn, hmean⟩

end Query

namespace Engine

/-- Without a cache, a query that sums up all it finds, and meets nothing but integers and absent
values, answers the same in whatever order it sorts. -/
theorem summary_in_any_order {engine : Engine} (hdisabled : engine.cache.enabled = false)
    {q : Query} (hactive : q.aggregations.isEmpty = false) (hlimit : q.limit = none)
    (hintegers : ∀ nodes, q.found engine.store engine.settings.maxDepth = .ok nodes →
      ∀ name a, q.aggregations.get? name = some a → a.OverIntegers nodes) (now done : Number) :
    (∀ sorting asked answered,
      (engine.execute { q with sorting } asked answered).1 = (engine.execute q now done).1) ∧
    (∀ answer, (engine.execute q now done).1 = .ok answer → ∃ nodes columns,
      q.found engine.store engine.settings.maxDepth = .ok nodes ∧ answer = .summary columns ∧
        q.SumsUp nodes columns) ∧
    ∀ key nodes, q.key = .ok key → q.found engine.store engine.settings.maxDepth = .ok nodes →
      ((∃ answer, (engine.execute q now done).1 = .ok answer) ↔
        ∀ name a, q.aggregations.get? name = some a → a.function = .avg → a.HasMean nodes) := by
  have hover (nodes : List Node)
      (hfound : q.found engine.store engine.settings.maxDepth = .ok nodes) :
      q.answerOver nodes = q.present nodes :=
    Query.answerOver_eq_present hactive hlimit (hintegers nodes hfound)
  refine ⟨fun sorting asked answered => ?_, fun answer hanswer => ?_,
    fun key nodes hkey hfound => ?_⟩
  · have halike : Query.FindsAlike { q with sorting } q :=
      ⟨rfl, rfl, rfl, rfl, fun _ => Iff.rfl⟩
    rw [execute_of_disabled hdisabled, execute_of_disabled hdisabled]
    refine halike.answerAfresh_eq fun nodes hfound => ?_
    rw [hover nodes hfound]
    exact Query.answerOver_eq_present (q := { q with sorting }) hactive hlimit
      (hintegers nodes hfound)
  · rw [execute_of_disabled hdisabled] at hanswer
    have halike : Query.FindsAlike q q := ⟨rfl, rfl, rfl, rfl, fun _ => Iff.rfl⟩
    obtain ⟨nodes, hfound, hanswer, -⟩ := halike.answerAfresh_of_ok hanswer
    rw [hover nodes hfound, Query.present_ok_iff hactive] at hanswer
    obtain ⟨columns, hcolumns, rfl⟩ := hanswer
    exact ⟨nodes, _, hfound, rfl, Query.sumsUp_of_evalAll (hintegers nodes hfound) hcolumns⟩
  · rw [execute_of_found hdisabled hkey hfound, hover nodes hfound]
    exact Query.present_isOk_iff hactive (hintegers nodes hfound)

/-- Sorted or not, by a field that holds a text, a NaN and nothing: three nodes have six together, and
a third of it on average, although one of them has no number. -/
theorem summary_of_mixed_order :
    let node (id : String) (properties : List (String × Value)) : Node :=
      { id := .str id, type := "t", properties := .ofList properties }
    let nodes := [node "a" [("n", .int 5), ("by", .str "x")], node "b" [("by", .float .nan)],
      node "c" [("n", .int 1)]]
    let engine := (start { cacheEnabled := false }).performAll (nodes.map .add)
    let q : Query :=
      { target := "t"
        aggregations := .ofList [("sum", ⟨.sum, some "n"⟩), ("mean", ⟨.avg, some "n"⟩)] }
    let now : Number := .int 0
    engine.cache.enabled = false ∧ q.aggregations.isEmpty = false ∧ q.limit = none ∧
      q.found engine.store engine.settings.maxDepth = .ok nodes ∧
      (∀ name a, q.aggregations.get? name = some a → a.OverIntegers nodes) ∧
      (engine.execute { q with sorting := some ⟨"by", .desc⟩ } now now).1 =
        (engine.execute q now now).1 ∧
      ∃ columns mean, (engine.execute q now now).1 = .ok (.summary columns) ∧
        columns.get? "sum" = some (.int 6) ∧ columns.get? "mean" = some (.float mean) ∧
        (Number.int 6).divCount 3 = .ok mean := by
  intro node nodes engine q now
  have hfound : q.found engine.store engine.settings.maxDepth = .ok nodes :=
    (found_performAll rfl (nodes.map .add) rfl _).trans rfl
  have hnodes : ∀ node ∈ nodes, node.property "n" = .null ∨ ∃ n, node.property "n" = .int n := by
    simp only [nodes, List.forall_mem_cons]
    exact ⟨.inr ⟨5, rfl⟩, .inl rfl, .inr ⟨1, rfl⟩, List.forall_mem_nil _⟩
  have hfield : ∀ name a, q.aggregations.get? name = some a → a.field = some "n" := by
    intro name a hget
    have hmem : (name, a) ∈ [("sum", ⟨.sum, some "n"⟩), ("mean", ⟨.avg, some "n"⟩)] :=
      OrderedMap.get?_eq_some_iff.1 hget
    simp only [List.mem_cons, Prod.mk.injEq, List.not_mem_nil, or_false] at hmem
    rcases hmem with ⟨-, rfl⟩ | ⟨-, rfl⟩ <;> rfl
  have hintegers : ∀ name a, q.aggregations.get? name = some a → a.OverIntegers nodes := by
    intro name a hget
    refine .inr ?_
    simp only [Aggregation.MeetsIntegers, Aggregation.valueOf, hfield name a hget]
    exact hnodes
  have hmean : ∀ name a, q.aggregations.get? name = some a → a.HasMean nodes := by
    intro name a hget
    have hsix : (a.integers nodes).sum = 6 := by
      simp only [Aggregation.integers, Aggregation.valueOf, hfield name a hget]
      rfl
    refine .inr ?_
    rw [hsix]
    decide +kernel
  obtain ⟨key, hkey⟩ : ∃ key, q.key = .ok key := Query.exists_key_of_no_values rfl rfl rfl
  obtain ⟨hsorting, hsummary, hanswered⟩ := summary_in_any_order (q := q) rfl rfl rfl
    (fun found h => Except.ok.inj (hfound.symm.trans h) ▸ hintegers) now now
  obtain ⟨answer, hanswer⟩ :=
    (hanswered key nodes hkey hfound).2 fun name a hget _ => hmean name a hget
  obtain ⟨found, columns, hfound', rfl, hsums⟩ := hsummary answer hanswer
  obtain rfl : nodes = found := Except.ok.inj (hfound.symm.trans hfound')
  obtain ⟨mean, hcolumn, hmean⟩ := hsums.mean "mean" _ rfl rfl
  exact ⟨rfl, rfl, rfl, hfound, hintegers, hsorting _ now now, columns, mean, hanswer,
    hsums.sum "sum" _ rfl rfl, hcolumn, hmean.2 (List.cons_ne_nil _ _)⟩

end Engine

end PropertyGraph
