import PropertyGraph.Engine.Evaluate
import PropertyGraph.Proofs.Number.Range

/-!
Aggregates that have no value although all that they are over is numeric. It is a sum in which an
integer out of the range of floats meets one, or a mean of integers that is out of this range; the
evaluation of a query fails on arithmetic only where the first aggregate that has no value is one of
these.
-/

namespace PropertyGraph

namespace Aggregation

/-- The numbers that an aggregate adds or divides are out of range: after the nodes before it, the
number of a node clashes with their sum, or the sum is an integer too large for its mean. -/
inductive Overflows (a : Aggregation) : List Node → ArithmeticError → Prop
  | clash {before after : List Node} {node : Node} {total n : Number} :
      a.function = .sum ∨ a.function = .avg → a.sum before = .ok total →
      (a.valueOf node).number? = some n → total.Clash n →
      Overflows a (before ++ node :: after) .integerTooLarge
  | mean {nodes : List Node} {n : Int} :
      a.function = .avg → nodes ≠ [] → a.sum nodes = .ok (.int n) →
      nodes.length * Double.overflowThreshold ≤ n.natAbs → Overflows a nodes .quotientTooLarge

variable {a : Aggregation} {nodes : List Node} {e : ArithmeticError}

theorem addValue_eq_arithmetic_iff {total : Number} {node : Node} :
    a.addValue total node = .error (.arithmetic e) ↔
      ∃ n, (a.valueOf node).number? = some n ∧ total.Clash n ∧ e = .integerTooLarge := by
  unfold addValue
  dsimp only
  split
  case isTrue hnull =>
    refine iff_of_false (by simp) ?_
    rintro ⟨n, hn, -⟩
    cases hvalue : a.valueOf node <;> simp [hvalue, Value.isNull, Value.number?] at hnull hn
  case isFalse =>
    cases hn : (a.valueOf node).number? with
    | none => simp
    | some n =>
        dsimp only
        rw [mapError_eq_error_iff]
        simp [Number.add_eq_error_iff]

theorem sum_eq_arithmetic_iff :
    a.sum nodes = .error (.arithmetic e) ↔
      ∃ before node after total n, nodes = before ++ node :: after ∧ a.sum before = .ok total ∧
        (a.valueOf node).number? = some n ∧ total.Clash n ∧ e = .integerTooLarge := by
  unfold sum
  rw [foldlM_eq_error_iff]
  simp only [addValue_eq_arithmetic_iff, exists_and_left]

/-- Least and greatest only compare. -/
theorem typeName?_of_extreme {symbol : String} {wanted : Ordering} {ofNone : Double}
    {values : List Value} {e : ExecutionError}
    (h : a.extreme symbol wanted ofNone values = .error e) :
    e.typeName? = some "ComputeFieldError" := by
  cases values with
  | nil => cases h
  | cons first rest =>
      obtain ⟨-, value, -, best, -, -, hbetter⟩ := foldlM_eq_error_iff.1 h
      unfold better at hbetter
      split at hbetter
      · rw [← Except.error.inj hbetter]
        rfl
      · cases hbetter

theorem mean_eq_arithmetic_iff :
    a.mean nodes = .error (.arithmetic e) ↔
      a.sum nodes = .error (.arithmetic e) ∨ nodes ≠ [] ∧ ∃ n, a.sum nodes = .ok (.int n) ∧
        nodes.length * Double.overflowThreshold ≤ n.natAbs ∧ e = .quotientTooLarge := by
  unfold mean
  rw [bind_eq_error_iff]
  refine or_congr_right ?_
  cases nodes with
  | nil => exact iff_of_false (by rintro ⟨_, -, h⟩; cases h) (absurd rfl ·.1)
  | cons first rest =>
      rw [and_iff_right (List.cons_ne_nil first rest)]
      simp only [List.isEmpty_cons, Bool.false_eq_true, if_false]
      constructor
      · rintro ⟨total, htotal, h⟩
        obtain ⟨e', hdiv, he⟩ := mapError_eq_error_iff.1 h
        obtain rfl := ExecutionError.arithmetic.inj he
        obtain ⟨⟨n, rfl, hn⟩, he⟩ :=
          (Number.divCount_eq_error_iff (Nat.succ_pos rest.length)).1 hdiv
        exact ⟨n, htotal, hn, he⟩
      · rintro ⟨n, htotal, hn, rfl⟩
        refine ⟨_, htotal, mapError_eq_error_iff.2 ⟨.quotientTooLarge, ?_, rfl⟩⟩
        exact (Number.divCount_eq_error_iff (Nat.succ_pos rest.length)).2 ⟨⟨n, rfl, hn⟩, rfl⟩

/-- A sum or mean overflows with its sum, and a mean also with its quotient. -/
theorem overflows_iff :
    a.Overflows nodes e ↔
      (a.function = .sum ∧ a.sum nodes = .error (.arithmetic e)) ∨
        (a.function = .avg ∧ a.mean nodes = .error (.arithmetic e)) := by
  rw [mean_eq_arithmetic_iff, sum_eq_arithmetic_iff]
  constructor
  · intro h
    cases h with
    | clash hfunction htotal hn hclash =>
        rcases hfunction with hfunction | hfunction
        · exact .inl ⟨hfunction, _, _, _, _, _, rfl, htotal, hn, hclash, rfl⟩
        · exact .inr ⟨hfunction, .inl ⟨_, _, _, _, _, rfl, htotal, hn, hclash, rfl⟩⟩
    | mean hfunction hnodes htotal hn => exact .inr ⟨hfunction, .inr ⟨hnodes, _, htotal, hn, rfl⟩⟩
  · rintro (⟨hfunction, before, node, after, total, n, rfl, htotal, hn, hclash, rfl⟩ |
      ⟨hfunction, ⟨before, node, after, total, n, rfl, htotal, hn, hclash, rfl⟩ |
        ⟨hnodes, n, htotal, hn, rfl⟩⟩)
    · exact .clash (.inl hfunction) htotal hn hclash
    · exact .clash (.inr hfunction) htotal hn hclash
    · exact .mean hfunction hnodes htotal hn

/-- An aggregate fails on arithmetic exactly if it overflows. -/
theorem eval_eq_arithmetic_iff : a.eval nodes = .error (.arithmetic e) ↔ a.Overflows nodes e := by
  rw [overflows_iff]
  unfold eval
  cases a.function with
  | count => simp
  | sum => simp [map_eq_error_iff]
  | avg => simp [map_eq_error_iff]
  | min => simpa using fun h => nomatch typeName?_of_extreme h
  | max => simpa using fun h => nomatch typeName?_of_extreme h

theorem typeName?_of_addValue {total : Number} {node : Node} {e : ExecutionError}
    (h : a.addValue total node = .error e) :
    e.typeName? = some "ComputeFieldError" ∨ ∃ overflow, e = .arithmetic overflow := by
  unfold addValue at h
  dsimp only at h
  split at h
  case isTrue => cases h
  case isFalse =>
    split at h
    case h_1 =>
      obtain ⟨overflow, -, rfl⟩ := mapError_eq_error_iff.1 h
      exact .inr ⟨overflow, rfl⟩
    case h_2 =>
      rw [← Except.error.inj h]
      exact .inl rfl

/-- What else an aggregate fails on is a failure of the request. -/
theorem typeName?_of_eval {e : ExecutionError} (h : a.eval nodes = .error e) :
    e.typeName? = some "ComputeFieldError" ∨ ∃ overflow, e = .arithmetic overflow := by
  have hsum (h : a.sum nodes = .error e) :
      e.typeName? = some "ComputeFieldError" ∨ ∃ overflow, e = .arithmetic overflow := by
    obtain ⟨-, node, -, total, -, -, hnode⟩ := foldlM_eq_error_iff.1 h
    exact typeName?_of_addValue hnode
  unfold eval at h
  split at h
  case h_1 => cases h
  case h_2 => exact hsum (map_eq_error_iff.1 h)
  case h_3 =>
    rcases bind_eq_error_iff.1 (map_eq_error_iff.1 h) with h | ⟨total, -, h⟩
    · exact hsum h
    · split at h
      · cases h
      · obtain ⟨overflow, -, rfl⟩ := mapError_eq_error_iff.1 h
        exact .inr ⟨overflow, rfl⟩
  case h_4 => exact .inl (typeName?_of_extreme h)
  case h_5 => exact .inl (typeName?_of_extreme h)

/-- The aggregates fail as the first of them does that has no value. -/
theorem evalAll_eq_error_iff {entries : List (String × Aggregation)} {e : ExecutionError} :
    evalAll nodes entries = .error e ↔
      ∃ before name a after, entries = before ++ (name, a) :: after ∧
        (∀ entry ∈ before, ∃ value, entry.2.eval nodes = .ok value) ∧ a.eval nodes = .error e := by
  induction entries with
  | nil =>
      refine iff_of_false nofun ?_
      rintro ⟨before, name, a, after, hnil, -⟩
      simp at hnil
  | cons entry rest ih =>
      obtain ⟨name, a⟩ := entry
      rw [evalAll, bind_eq_error_iff]
      constructor
      · rintro (ha | ⟨value, hvalue, hrest⟩)
        · exact ⟨[], name, a, rest, rfl, List.forall_mem_nil _, ha⟩
        · obtain ⟨before, other, b, after, rfl, hbefore, hb⟩ := ih.1 (map_eq_error_iff.1 hrest)
          exact ⟨(name, a) :: before, other, b, after, rfl,
            List.forall_mem_cons.2 ⟨⟨value, hvalue⟩, hbefore⟩, hb⟩
      · rintro ⟨before, other, b, after, hlist, hbefore, hb⟩
        cases before with
        | nil =>
            obtain ⟨hentry, -⟩ := List.cons.inj hlist
            cases hentry
            exact .inl hb
        | cons entry before =>
            obtain ⟨rfl, rfl⟩ := List.cons.inj hlist
            obtain ⟨⟨value, hvalue⟩, hbefore⟩ := List.forall_mem_cons.1 hbefore
            exact .inr ⟨value, hvalue,
              map_eq_error_iff.2 (ih.2 ⟨before, other, b, after, rfl, hbefore, hb⟩)⟩

end Aggregation

namespace Query

variable {q : Query} {e : ExecutionError}

theorem typeName?_of_relationships {value : Value} (h : relationships value = .error e) :
    e.typeName?.isSome = true := by
  unfold relationships at h
  split at h
  case h_4 =>
    rw [← Except.error.inj h]
    rfl
  all_goals cases h

theorem typeName?_of_stepCount {value : Value} (h : stepCount value = .error e) :
    e.typeName?.isSome = true := by
  unfold stepCount at h
  split at h
  · split at h
    · rw [← Except.error.inj h]
      rfl
    · cases h
  · rw [← Except.error.inj h]
    rfl

/-- What cannot be selected is a failure of the request. -/
theorem typeName?_of_select {store : Store} {depth : Int} (h : q.select store depth = .error e) :
    e.typeName?.isSome = true := by
  unfold select at h
  split at h
  case isTrue => cases h
  case isFalse =>
    split at h
    case isTrue =>
      unfold walk at h
      split at h
      case h_1 =>
        rw [← Except.error.inj h]
        rfl
      case h_2 =>
        rcases bind_eq_error_iff.1 h with h | ⟨path, -, h⟩
        · exact typeName?_of_relationships h
        · exact typeName?_of_stepCount (map_eq_error_iff.1 h)
    case isFalse =>
      rw [← Except.error.inj h]
      rfl

theorem present_eq_error_iff {nodes : List Node} :
    q.present nodes = .error e ↔
      Aggregation.evalAll nodes q.aggregations.entries = .error e := by
  unfold present
  split
  case isTrue h =>
    have hnil : q.aggregations.entries = [] := List.isEmpty_iff.1 h
    rw [hnil]
    exact iff_of_false nofun nofun
  case isFalse => exact map_eq_error_iff

/-- The first aggregate that has no value over the nodes of the answer overflows. -/
def Overflows (q : Query) (store : Store) (depth : Int) (e : ArithmeticError) : Prop :=
  ∃ nodes before name a after, q.select store depth = .ok nodes ∧
    q.aggregations.entries = before ++ (name, a) :: after ∧
    (∀ entry ∈ before, ∃ value, entry.2.eval (q.arrange nodes) = .ok value) ∧
    a.Overflows (q.arrange nodes) e

/-- A query fails on arithmetic exactly if one of its aggregates overflows before another fails. -/
theorem evaluate_eq_arithmetic_iff {store : Store} {depth : Int} {e : ArithmeticError} :
    store.evaluate depth q = .error (.arithmetic e) ↔ q.Overflows store depth e := by
  unfold Store.evaluate Overflows
  simp only [bind_eq_error_iff, present_eq_error_iff, Aggregation.evalAll_eq_error_iff,
    Aggregation.eval_eq_arithmetic_iff, exists_and_left]
  exact or_iff_right fun h => nomatch typeName?_of_select h

theorem typeName?_of_evaluate {store : Store} {depth : Int}
    (h : store.evaluate depth q = .error e) :
    e.typeName?.isSome = true ∨ ∃ overflow, e = .arithmetic overflow := by
  rcases bind_eq_error_iff.1 h with h | ⟨nodes, -, h⟩
  · exact .inl (typeName?_of_select h)
  · obtain ⟨-, -, a, -, -, -, heval⟩ :=
      Aggregation.evalAll_eq_error_iff.1 (present_eq_error_iff.1 h)
    refine (Aggregation.typeName?_of_eval heval).imp_left fun h => ?_
    rw [h]
    rfl

end Query

end PropertyGraph
