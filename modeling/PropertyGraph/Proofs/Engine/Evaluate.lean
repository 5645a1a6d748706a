import PropertyGraph.Engine.Evaluate
import PropertyGraph.Proofs.OrderedMap

/-!
What the answer to a query depends on. Of its clauses it is only what they bind each key to: their
order decides at most which of several failing aggregates is reported.
-/

namespace PropertyGraph

/-- The answers hold the same: the same rows in the same order, or the same columns. -/
def Answer.Same : Answer → Answer → Prop
  | .rows found, .rows others => found = others
  | .summary columns, .summary others => ∀ name, columns.get? name = others.get? name
  | _, _ => False

namespace Answer.Same

theorem refl (answer : Answer) : answer.Same answer := by
  cases answer with
  | rows found => exact rfl
  | summary columns => exact fun name => rfl

theorem symm {first second : Answer} (h : first.Same second) : second.Same first := by
  cases first with
  | rows found =>
      cases second with
      | rows others => exact Eq.symm h
      | summary others => exact h
  | summary columns =>
      cases second with
      | rows others => exact h
      | summary others => exact fun name => (h name).symm

theorem trans {first second third : Answer} (h : first.Same second) (h' : second.Same third) :
    first.Same third := by
  cases first with
  | rows found =>
      cases second with
      | rows others =>
          cases third with
          | rows last => exact Eq.trans h h'
          | summary last => exact h'
      | summary others => exact h.elim
  | summary columns =>
      cases second with
      | rows others => exact h.elim
      | summary others =>
          cases third with
          | rows last => exact h'
          | summary last => exact fun name => (h name).trans (h' name)

end Answer.Same

namespace Aggregation

theorem evalAll_cons_ok_iff {nodes : List Node} {name : String} {a : Aggregation}
    {rest : List (String × Aggregation)} {columns : List (String × Value)} :
    evalAll nodes ((name, a) :: rest) = .ok columns ↔
      ∃ value more, a.eval nodes = .ok value ∧ evalAll nodes rest = .ok more ∧
        columns = (name, value) :: more := by
  rw [evalAll]
  cases a.eval nodes with
  | error e => exact iff_of_false nofun nofun
  | ok value =>
      cases evalAll nodes rest with
      | error e => exact iff_of_false nofun nofun
      | ok more =>
          constructor
          · intro h
            exact ⟨value, more, rfl, rfl, (Except.ok.inj h).symm⟩
          · rintro ⟨_, _, hvalue, hmore, rfl⟩
            obtain rfl := Except.ok.inj hvalue
            obtain rfl := Except.ok.inj hmore
            rfl

/-- The value of a named aggregate, as it stands among the values of all. -/
theorem find?_evalAll {nodes : List Node} {entries : List (String × Aggregation)}
    {columns : List (String × Value)} (h : evalAll nodes entries = .ok columns) (name : String) :
    (columns.find? (·.1 = name)).map Prod.snd =
      ((entries.find? (·.1 = name)).map Prod.snd).bind fun a => (a.eval nodes).toOption := by
  induction entries generalizing columns with
  | nil =>
      obtain rfl := Except.ok.inj h
      rfl
  | cons entry rest ih =>
      obtain ⟨value, more, heval, hrest, rfl⟩ := evalAll_cons_ok_iff.1 h
      by_cases hname : entry.1 = name
      · simp [hname, heval, Except.toOption]
      · simp [hname, ih hrest]

theorem keys_evalAll {nodes : List Node} {entries : List (String × Aggregation)}
    {columns : List (String × Value)} (h : evalAll nodes entries = .ok columns) :
    columns.map Prod.fst = entries.map Prod.fst := by
  induction entries generalizing columns with
  | nil =>
      obtain rfl := Except.ok.inj h
      rfl
  | cons entry rest ih =>
      obtain ⟨value, more, -, hrest, rfl⟩ := evalAll_cons_ok_iff.1 h
      rw [List.map_cons, List.map_cons, ih hrest]

/-- All aggregates have values exactly if each of them has one. -/
theorem evalAll_isOk_iff {nodes : List Node} {entries : List (String × Aggregation)} :
    (∃ columns, evalAll nodes entries = .ok columns) ↔
      ∀ entry ∈ entries, ∃ value, entry.2.eval nodes = .ok value := by
  induction entries with
  | nil => exact iff_of_true ⟨[], rfl⟩ fun _ h => absurd h List.not_mem_nil
  | cons entry rest ih =>
      rw [List.forall_mem_cons, ← ih]
      constructor
      · rintro ⟨columns, h⟩
        obtain ⟨value, more, heval, hrest, -⟩ := evalAll_cons_ok_iff.1 h
        exact ⟨⟨value, heval⟩, more, hrest⟩
      · rintro ⟨⟨value, heval⟩, more, hrest⟩
        exact ⟨_, evalAll_cons_ok_iff.2 ⟨value, more, heval, hrest, rfl⟩⟩

end Aggregation

namespace Query

/-- The queries agree in everything that an answer depends on. -/
structure Alike (a b : Query) : Prop where
  operation : a.operation = b.operation
  target : a.target = b.target
  conditions : ∀ key, a.conditions.get? key = b.conditions.get? key
  aggregations : ∀ key, a.aggregations.get? key = b.aggregations.get? key
  filters : ∀ key, a.filters.get? key = b.filters.get? key
  sorting : a.sorting = b.sorting
  limit : a.limit = b.limit

namespace Alike

variable {a b : Query} (h : Alike a b)

include h

theorem fetch (store : Store) : a.fetch store = b.fetch store := by
  unfold Query.fetch Node.meets
  rw [h.target]
  exact List.filter_congr fun node _ => OrderedMap.all_entries_congr h.conditions _

theorem select (store : Store) (depth : Int) : a.select store depth = b.select store depth := by
  have hwalk : a.walk store depth = b.walk store depth := by
    unfold Query.walk Query.start?
    rw [h.conditions, h.conditions, h.conditions]
  unfold Query.select
  rw [h.fetch store, hwalk, h.operation]

theorem arrange (nodes : List Node) : a.arrange nodes = b.arrange nodes := by
  have hpasses :
      (fun node : Node => node.passes a.filters) = fun node => node.passes b.filters := by
    funext node
    exact OrderedMap.all_entries_congr h.filters _
  unfold Query.arrange
  rw [hpasses, h.sorting, h.limit]

theorem evalAll {nodes : List Node} {columns : List (String × Value)}
    (hcolumns : Aggregation.evalAll nodes a.aggregations.entries = .ok columns) :
    ∃ others, Aggregation.evalAll nodes b.aggregations.entries = .ok others ∧
      ∀ name, (OrderedMap.ofList columns).get? name = (OrderedMap.ofList others).get? name := by
  have hvalues := Aggregation.evalAll_isOk_iff.1 ⟨columns, hcolumns⟩
  obtain ⟨others, hothers⟩ : ∃ others,
      Aggregation.evalAll nodes b.aggregations.entries = .ok others := by
    refine Aggregation.evalAll_isOk_iff.2 fun entry hentry => ?_
    have hget := OrderedMap.get?_eq_some_iff.2 hentry
    rw [← h.aggregations] at hget
    exact hvalues _ (OrderedMap.get?_eq_some_iff.1 hget)
  refine ⟨others, hothers, fun name => ?_⟩
  have hdistinct : (columns.map Prod.fst).Nodup := by
    rw [Aggregation.keys_evalAll hcolumns]
    exact a.aggregations.distinct
  have hdistinct' : (others.map Prod.fst).Nodup := by
    rw [Aggregation.keys_evalAll hothers]
    exact b.aggregations.distinct
  rw [OrderedMap.get?_ofList hdistinct, OrderedMap.get?_ofList hdistinct',
    Aggregation.find?_evalAll hcolumns, Aggregation.find?_evalAll hothers]
  exact congrArg (Option.bind · fun a => (a.eval nodes).toOption) (h.aggregations name)

theorem present {nodes : List Node} {answer : Answer} (hanswer : a.present nodes = .ok answer) :
    ∃ other, b.present nodes = .ok other ∧ answer.Same other := by
  unfold Query.present at hanswer ⊢
  rw [← OrderedMap.isEmpty_congr h.aggregations]
  split at hanswer
  case isTrue hempty =>
    rw [if_pos hempty]
    obtain rfl := Except.ok.inj hanswer
    exact ⟨_, rfl, Answer.Same.refl _⟩
  case isFalse hactive =>
    rw [if_neg hactive]
    cases hcolumns : Aggregation.evalAll nodes a.aggregations.entries with
    | error e => rw [hcolumns] at hanswer; cases hanswer
    | ok columns =>
        rw [hcolumns] at hanswer
        obtain rfl := Except.ok.inj hanswer
        obtain ⟨others, hothers, hsame⟩ := h.evalAll hcolumns
        rw [hothers]
        exact ⟨_, rfl, hsame⟩

/-- What is an answer to the one query is one to the other. -/
theorem evaluate {store : Store} {depth : Int} {answer : Answer}
    (hanswer : store.evaluate depth a = .ok answer) :
    ∃ other, store.evaluate depth b = .ok other ∧ answer.Same other := by
  unfold Store.evaluate at hanswer ⊢
  rw [← h.select]
  cases hnodes : a.select store depth with
  | error e => rw [hnodes] at hanswer; cases hanswer
  | ok nodes =>
      rw [hnodes] at hanswer
      have hpresent : a.present (a.arrange nodes) = .ok answer := hanswer
      obtain ⟨other, hother, hsame⟩ := h.present hpresent
      rw [h.arrange] at hother
      exact ⟨other, hother, hsame⟩

end Alike

end Query

end PropertyGraph
