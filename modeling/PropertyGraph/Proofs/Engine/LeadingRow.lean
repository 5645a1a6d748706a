import PropertyGraph.Proofs.Engine.Evaluate
import PropertyGraph.Proofs.Engine.Extreme
import PropertyGraph.Proofs.Engine.Found

/-!
The first row of a sorted answer. Its value of the field that is sorted by is the least or the
greatest one of the answer, and the very one that the aggregate picks: of equal values both take the
one that was found first.
-/

namespace PropertyGraph

/-- The aggregate that picks the value which the order puts first. -/
def SortOrder.extreme : SortOrder → AggregateFunction
  | .asc => .min
  | .desc => .max

namespace Aggregation

/-- Where every node holds a scalar of one class in the field, and no NaN, the aggregate of an order
picks the first of the values which the order puts first. -/
theorem eval_extreme_firstLeast (order : SortOrder) {field : String} {nodes : List Node}
    {c : Value.OrderClass} (hne : nodes ≠ [])
    (hvalues : ∀ node ∈ nodes, (node.property field).orderClass? = some c ∧
      (node.property field).isNaN = false) :
    ∃ v, eval ⟨order.extreme, some field⟩ nodes = .ok v ∧
      FirstLeast order.Le (nodes.map (·.property field)) v := by
  obtain ⟨symbol, ofNone, heval⟩ : ∃ symbol ofNone, eval ⟨order.extreme, some field⟩ nodes =
      extreme ⟨order.extreme, some field⟩ symbol order.wanted ofNone
        (present ⟨order.extreme, some field⟩ nodes) := by
    cases order <;> exact ⟨_, _, rfl⟩
  have hpresent : present ⟨order.extreme, some field⟩ nodes = nodes.map (·.property field) := by
    refine List.filter_eq_self.2 (List.forall_mem_map.2 fun node hnode => ?_)
    show (!(node.property field).isNull) = true
    rw [Value.isNull_of_orderClass? (hvalues node hnode).1]
    rfl
  rw [heval, hpresent]
  exact extreme_firstLeast order (List.forall_mem_map.2 hvalues) (by simpa using hne)

end Aggregation

namespace Sorting

/-- The node that comes first after sorting is the first of those which the order puts first. -/
theorem firstLeast_of_sort {s : Sorting} {nodes rest : List Node} {node : Node}
    (hcompares : s.ComparesAll nodes) (hsort : s.sort nodes = node :: rest) :
    FirstLeast s.order.Le (nodes.map (·.property s.field)) (node.property s.field) := by
  have hfirst := FirstLeast.of_sort (orders_precedes hcompares) (fun a ha => ha) hsort
  rw [inOrder_eq] at hfirst
  exact hfirst.map

end Sorting

namespace Query

/-- The first row of a query in the order of a field. -/
def leading (q : Query) (s : Sorting) : Query := { q with sorting := some s, limit := some 1 }

/-- One aggregate over what a query finds. -/
def summedUp (q : Query) (name : String) (a : Aggregation) : Query :=
  { q with aggregations := .ofList [(name, a)] }

theorem findsAlike_leading {q : Query} (hlimit : q.limit = none) (s : Sorting) :
    q.FindsAlike (q.leading s) := by
  have hone : withinDigits 1 = true := by decide +kernel
  have hwritten : ∀ n, (q.leading s).limit = some n → withinDigits n = true := by
    rintro n ⟨⟩
    exact hone
  refine ⟨rfl, rfl, rfl, rfl, fun e => iff_of_false ?_ ?_⟩
  · rw [hlimit]
    exact nofun
  · rw [limitToJson_eq_ok_iff.2 ⟨hwritten, rfl⟩]
    exact nofun

theorem findsAlike_summedUp (q : Query) (name : String) (a : Aggregation) :
    q.FindsAlike (q.summedUp name a) := ⟨rfl, rfl, rfl, rfl, fun _ => Iff.rfl⟩

variable {q : Query} {nodes : List Node}

/-- A query that only finds shows all that it finds. -/
theorem answerOver_of_plain (haggregations : q.aggregations.isEmpty = true)
    (hsorting : q.sorting = none) (hlimit : q.limit = none) :
    q.answerOver nodes = .ok (.rows (nodes.map Node.toRow)) := by
  simp [answerOver, present, haggregations, hsorting, hlimit]

theorem answerOver_leading (haggregations : q.aggregations.isEmpty = true) {s : Sorting}
    {node : Node} {rest : List Node} (hsort : s.sort nodes = node :: rest) :
    (q.leading s).answerOver nodes = .ok (.rows [node.toRow]) := by
  simp [answerOver, leading, present, haggregations, hsort, takeLimit]

theorem answerOver_summedUp (hsorting : q.sorting = none) (hlimit : q.limit = none)
    {name : String} {a : Aggregation} {v : Value} (heval : a.eval nodes = .ok v) :
    (q.summedUp name a).answerOver nodes = .ok (.summary (.ofList [(name, v)])) := by
  have hcolumns : Aggregation.evalAll nodes [(name, a)] = .ok [(name, v)] :=
    Aggregation.evalAll_cons_ok_iff.2 ⟨v, [], heval, rfl, rfl⟩
  have hpresent : (q.summedUp name a).present nodes = .ok (.summary (.ofList [(name, v)])) := by
    show Aggregation.evalAll nodes [(name, a)] >>= _ = _
    rw [hcolumns]
    rfl
  rw [answerOver, summedUp, hsorting, hlimit]
  exact hpresent

end Query

namespace Engine

/-- Without a cache, sorting the rows of an answer and taking the first gives a row that holds the
very value which the aggregate of that order finds in all rows, where these hold scalars of one class
and no NaN. -/
theorem extreme_of_leading_row {engine : Engine} (hdisabled : engine.cache.enabled = false)
    {q : Query} (haggregations : q.aggregations.isEmpty = true) (hsorting : q.sorting = none)
    (hlimit : q.limit = none) {rows : List Row} {asked answered : Number}
    (hrows : (engine.execute q asked answered).1 = .ok (.rows rows)) (hne : rows ≠ [])
    {field : String} {c : Value.OrderClass}
    (hvalues : ∀ row ∈ rows, ∃ v, row.properties.get? field = some v ∧
      v.orderClass? = some c ∧ v.isNaN = false)
    (order : SortOrder) (name : String) (now done : Number) :
    ∃ row v,
      (engine.execute (q.leading ⟨field, order⟩) now done).1 = .ok (.rows [row]) ∧
      row.properties.get? field = some v ∧
      (engine.execute (q.summedUp name ⟨order.extreme, some field⟩) now done).1 =
        .ok (.summary (.ofList [(name, v)])) := by
  let s : Sorting := { field, order }
  have hrows : engine.answerAfresh q = .ok (.rows rows) := by
    rwa [execute_of_disabled hdisabled] at hrows
  obtain ⟨nodes, hfound, hover, hleading⟩ :=
    (Query.findsAlike_leading hlimit s).answerAfresh_of_ok hrows
  obtain ⟨_, hfound', -, hsummedUp⟩ :=
    (q.findsAlike_summedUp name ⟨order.extreme, some field⟩).answerAfresh_of_ok hrows
  obtain rfl := Except.ok.inj (hfound.symm.trans hfound')
  obtain rfl : nodes.map Node.toRow = rows := by
    simpa [Query.answerOver_of_plain haggregations hsorting hlimit] using hover
  have hproperty (node : Node) (hnode : node ∈ nodes) :
      node.properties.get? field = some (node.property field) ∧
        (node.property field).orderClass? = some c ∧ (node.property field).isNaN = false := by
    obtain ⟨v, hget, hclass, hnan⟩ := hvalues node.toRow (List.mem_map_of_mem hnode)
    have hget : node.properties.get? field = some v := hget
    obtain rfl : node.property field = v := by rw [Node.property, hget]; rfl
    exact ⟨hget, hclass, hnan⟩
  have hcompares : s.ComparesAll nodes := fun a ha b hb =>
    Value.comparable_of_orderClass? (hproperty a ha).2.1 (hproperty b hb).2.1
      (hproperty a ha).2.2 (hproperty b hb).2.2
  obtain ⟨v, heval, hfirst⟩ := Aggregation.eval_extreme_firstLeast order (by simpa using hne)
    fun node hnode => (hproperty node hnode).2
  have hperm : (s.sort nodes).Perm nodes := RunSort.sort_perm s.precedes nodes
  cases hsort : s.sort nodes with
  | nil =>
      rw [hsort, List.nil_perm] at hperm
      exact absurd (congrArg (List.map Node.toRow) hperm) hne
  | cons node rest =>
      have hnode : node ∈ nodes := hperm.mem_iff.1 (hsort ▸ List.mem_cons_self)
      obtain rfl : node.property field = v :=
        (Sorting.firstLeast_of_sort hcompares hsort).unique hfirst
      rw [execute_of_disabled hdisabled, execute_of_disabled hdisabled]
      exact ⟨node.toRow, _, hleading.trans (Query.answerOver_leading haggregations hsort),
        (hproperty node hnode).1,
        hsummedUp.trans (Query.answerOver_summedUp hsorting hlimit heval)⟩

/-- Of true and one, which are equally small, sorting and the aggregate take the one that was found
first. -/
theorem extreme_of_equal_values :
    let node (id : String) (value : Value) : Node :=
      { id := .str id, type := "t", properties := .ofList [("v", value)] }
    let nodes := [node "a" (.int 2), node "b" (.bool true), node "c" (.int 1)]
    let engine := (start { cacheEnabled := false }).performAll (nodes.map .add)
    let q : Query := { target := "t" }
    let now : Number := .int 0
    engine.cache.enabled = false ∧
      (engine.execute q now now).1 = .ok (.rows (nodes.map Node.toRow)) ∧
      (∀ row ∈ nodes.map Node.toRow, ∃ v, row.properties.get? "v" = some v ∧
        v.orderClass? = some .number ∧ v.isNaN = false) ∧
      ∃ row v, (engine.execute (q.leading ⟨"v", .asc⟩) now now).1 = .ok (.rows [row]) ∧
        row.properties.get? "v" = some v ∧
        (engine.execute (q.summedUp "m" ⟨.min, some "v"⟩) now now).1 =
          .ok (.summary (.ofList [("m", v)])) ∧ v = .bool true := by
  intro node nodes engine q now
  let least : Query := q.summedUp "m" ⟨.min, some "v"⟩
  obtain ⟨key, hkey⟩ : ∃ key, q.key = .ok key := Query.exists_key_of_no_values rfl rfl rfl
  obtain ⟨other, hother⟩ : ∃ key, least.key = .ok key := Query.exists_key_of_no_values rfl rfl rfl
  have hfound : q.found engine.store engine.settings.maxDepth = .ok nodes :=
    (found_performAll rfl (nodes.map .add) rfl _).trans rfl
  have hrows : (engine.execute q now now).1 = .ok (.rows (nodes.map Node.toRow)) :=
    (execute_of_found rfl hkey hfound now now).trans (Query.answerOver_of_plain rfl rfl rfl)
  have hvalues : ∀ row ∈ nodes.map Node.toRow, ∃ v, row.properties.get? "v" = some v ∧
      v.orderClass? = some .number ∧ v.isNaN = false := by
    simp only [nodes, List.map_cons, List.map_nil, List.forall_mem_cons]
    exact ⟨⟨_, rfl, rfl, rfl⟩, ⟨_, rfl, rfl, rfl⟩, ⟨_, rfl, rfl, rfl⟩, List.forall_mem_nil _⟩
  obtain ⟨row, v, hrow, hv, hm⟩ := extreme_of_leading_row (q := q) rfl rfl rfl rfl hrows
    (List.cons_ne_nil _ _) hvalues .asc "m" now now
  have heval : Aggregation.eval ⟨.min, some "v"⟩ nodes = .ok (.bool true) := rfl
  have hleast : (engine.execute least now now).1 = .ok (.summary (.ofList [("m", .bool true)])) :=
    (execute_of_found rfl hother hfound now now).trans
      (Query.answerOver_summedUp (q := q) rfl rfl heval)
  have hcolumns := Answer.summary.inj (Except.ok.inj (hm.symm.trans hleast))
  have hcolumn : some v = some (.bool true) := congrArg (OrderedMap.get? · "m") hcolumns
  exact ⟨rfl, hrows, hvalues, row, v, hrow, hv, hm, Option.some.inj hcolumn⟩

end Engine

end PropertyGraph
