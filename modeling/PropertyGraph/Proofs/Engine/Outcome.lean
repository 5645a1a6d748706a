import PropertyGraph.Engine.Outcome
import PropertyGraph.Proofs.Engine.Failure
import PropertyGraph.Proofs.Engine.Overflow
import PropertyGraph.Proofs.Language.Line
import PropertyGraph.Proofs.Language.Literal

/-!
What a request comes to. It is answered or it fails, and the outcome says which, but for two kinds
of errors that escape: an integer of too many digits in the text, and aggregates that overflow.
-/

namespace PropertyGraph

/-- The names under which failures of requests are reported. -/
def failureNames : List String :=
  ["ParseError", "MissingParameterError", "UnsupportedOperationError", "ExecutionError",
    "ComputeFieldError"]

/-- The outcome reports the result of a request: its answer with the name of the query, or what it
failed on, and no answer. -/
def Outcome.Reports : Outcome → Except RequestError (Query × Answer) → Prop
  | .answered queryName answer, .ok (q, found) => queryName = q.name ∧ answer = found
  | .failed typeName message, .error e =>
    e.typeName? = some typeName ∧ typeName ∈ failureNames ∧ message = e.message
  | _, _ => False

namespace RequestError

theorem typeName?_mem {e : RequestError} {typeName : String} (h : e.typeName? = some typeName) :
    typeName ∈ failureNames := by
  cases e with
  | text e =>
      obtain ⟨fault, line⟩ := e
      cases fault <;> simp_all [typeName?, failureNames]
  | execution e => cases e <;> simp_all [typeName?, ExecutionError.typeName?, failureNames]

theorem typeName?_text_eq_none_iff {e : TextError} :
    (text e).typeName? = none ↔ ∃ oversized line, e = ⟨.oversizedInteger oversized, line⟩ := by
  obtain ⟨fault, line⟩ := e
  cases fault <;> simp [typeName?]

end RequestError

namespace Engine

/-- What escapes a request that is made of an engine. -/
inductive Escapes (engine : Engine) (text : String) (now : Number) : RequestError → Prop
  | oversized {e : OversizedInteger} {line : Option Int} :
      Query.ofText text = .error ⟨.oversizedInteger e, line⟩ →
      Escapes engine text now (.text ⟨.oversizedInteger e, line⟩)
  | overflow {q : Query} {key : String} {e : ArithmeticError} :
      Query.ofText text = .ok q → q.key = .ok key → (engine.cache.get key now).1 = none →
      q.Overflows engine.store engine.settings.maxDepth e →
      Escapes engine text now (.execution (.arithmetic e))

variable {engine : Engine} {text : String} {now : Number}

/-- A request fails on its text, or on the query that the text makes. -/
theorem request_eq_error_iff {e : RequestError} :
    (engine.request text now).1 = .error e ↔
      (∃ fault, Query.ofText text = .error fault ∧ e = .text fault) ∨
        ∃ q failure, Query.ofText text = .ok q ∧ (engine.execute q now).1 = .error failure ∧
          e = .execution failure := by
  unfold request
  cases Query.ofText text with
  | error fault => simp [eq_comm]
  | ok q =>
      cases hexecute : engine.execute q now with
      | mk result after => cases result <;> simp [hexecute, eq_comm]

/-- Only what has no name as a failure is passed on. -/
theorem run_eq_error_iff {e : RequestError} :
    (engine.run text now).1 = .error e ↔
      (engine.request text now).1 = .error e ∧ e.typeName? = none := by
  unfold run
  cases hrequest : engine.request text now with
  | mk result after =>
      cases result with
      | ok found => simp
      | error e' =>
          cases hname : e'.typeName? with
          | some typeName =>
              refine iff_of_false (by simp [hname]) ?_
              rintro ⟨herror, hnone⟩
              rw [← Except.error.inj herror, hname] at hnone
              cases hnone
          | none =>
              simp only [hname, Except.error.injEq]
              exact ⟨fun h => ⟨h, h ▸ hname⟩, And.left⟩

theorem reports_of_run {outcome : Outcome} (h : (engine.run text now).1 = .ok outcome) :
    outcome.Reports (engine.request text now).1 := by
  unfold run at h
  cases hrequest : engine.request text now with
  | mk result after =>
      rw [hrequest] at h
      cases result with
      | ok found =>
          rw [← Except.ok.inj h]
          exact ⟨rfl, rfl⟩
      | error e =>
          cases hname : e.typeName? with
          | some typeName =>
              simp only [hname] at h
              rw [← Except.ok.inj h]
              exact ⟨hname, RequestError.typeName?_mem hname, rfl⟩
          | none => simp [hname] at h

/-- A query fails without a name exactly if no answer to it is found and it overflows. -/
theorem execute_eq_unnamed_iff {q : Query} {key : String} (hkey : q.key = .ok key)
    {e : ExecutionError} :
    (engine.execute q now).1 = .error e ∧ e.typeName? = none ↔
      ∃ overflow, e = .arithmetic overflow ∧ (engine.cache.get key now).1 = none ∧
        q.Overflows engine.store engine.settings.maxDepth overflow := by
  rw [execute_error_iff hkey]
  constructor
  · rintro ⟨⟨hmissed, hevaluate⟩, hname⟩
    rcases Query.typeName?_of_evaluate hevaluate with hnamed | ⟨overflow, rfl⟩
    · rw [hname] at hnamed
      cases hnamed
    · exact ⟨overflow, rfl, hmissed, Query.evaluate_eq_arithmetic_iff.1 hevaluate⟩
  · rintro ⟨overflow, rfl, hmissed, hoverflow⟩
    exact ⟨⟨hmissed, Query.evaluate_eq_arithmetic_iff.2 hoverflow⟩, rfl⟩

theorem escapes_iff {e : RequestError} :
    engine.Escapes text now e ↔
      (engine.request text now).1 = .error e ∧ e.typeName? = none := by
  rw [request_eq_error_iff]
  constructor
  · intro h
    cases h with
    | oversized htext => exact ⟨.inl ⟨_, htext, rfl⟩, rfl⟩
    | overflow htext hkey hmissed hoverflow =>
        obtain ⟨herror, hname⟩ := (execute_eq_unnamed_iff hkey).2 ⟨_, rfl, hmissed, hoverflow⟩
        exact ⟨.inr ⟨_, _, htext, herror, rfl⟩, hname⟩
  · rintro ⟨⟨fault, htext, rfl⟩ | ⟨q, failure, htext, herror, rfl⟩, hname⟩
    · obtain ⟨oversized, line, rfl⟩ := RequestError.typeName?_text_eq_none_iff.1 hname
      exact .oversized htext
    · obtain ⟨key, hkey⟩ := (Query.ofLiterals_of_ofText htext).exists_key
      obtain ⟨overflow, rfl, hmissed, hoverflow⟩ :=
        (execute_eq_unnamed_iff hkey).1 ⟨herror, hname⟩
      exact .overflow htext hkey hmissed hoverflow

/-- A request has an outcome, and one that reports its result, exactly if nothing escapes it. What
escapes is a number in the text that has too many digits to be read, or an aggregate out of the
range of floats. -/
theorem outcome_iff_nothing_escapes (engine : Engine) (text : String) (now : Number) :
    ((∃ outcome, (engine.run text now).1 = .ok outcome ∧
        outcome.Reports (engine.request text now).1) ↔ ∀ e, ¬ engine.Escapes text now e) ∧
      (∀ e, (engine.run text now).1 = .error e ↔ engine.Escapes text now e) ∧
      ∀ e line, engine.Escapes text now (.text ⟨.oversizedInteger e, line⟩) →
        e.StandsIn text.toList := by
  have hescapes (e : RequestError) :
      (engine.run text now).1 = .error e ↔ engine.Escapes text now e :=
    run_eq_error_iff.trans escapes_iff.symm
  refine ⟨⟨?_, fun h => ?_⟩, hescapes, fun e line h => ?_⟩
  · rintro ⟨outcome, houtcome, -⟩ e he
    rw [(hescapes e).2 he] at houtcome
    cases houtcome
  · cases hrun : (engine.run text now).1 with
    | ok outcome => exact ⟨outcome, rfl, reports_of_run hrun⟩
    | error e => exact absurd ((hescapes e).1 hrun) (h e)
  · cases h with
    | oversized htext => exact Query.standsIn_of_ofText htext

/-- The least integer that is near to no float escapes where a sum meets a float after it. -/
theorem sum_escapes :
    let large : Node :=
      { id := .str "a", type := "t", properties := .ofList [("v", .int Double.overflowThreshold)] }
    let half : Node :=
      { id := .str "b", type := "t", properties := .ofList [("v", .float (.ofDecimal false 5 (-1)))] }
    let engine := (start {}).performAll [.add large, .add half]
    (engine.run "FETCH t \x7b\n  COMPUTE \x7b\n    s: SUM(v)\n  \x7d\n\x7d" (.int 0)).1 =
      .error (.execution (.arithmetic .integerTooLarge)) := by
  intro large half engine
  let text := "FETCH t \x7b\n  COMPUTE \x7b\n    s: SUM(v)\n  \x7d\n\x7d"
  let tokens : List Token := [⟨.text "FETCH t", 1⟩, ⟨.opening, 1⟩, ⟨.text "COMPUTE", 2⟩,
    ⟨.opening, 2⟩, ⟨.text "s: SUM(v)", 3⟩, ⟨.closing, 4⟩, ⟨.closing, 5⟩]
  let a : Aggregation := ⟨.sum, some "v"⟩
  let q : Query := { operation := .fetch, target := "t", aggregations := .ofList [("s", a)] }
  have htokens : Token.ofText text.toList = .ok tokens := by decide +kernel
  have hoperation : Grammar.Operation "FETCH t" (.operation .fetch "t") :=
    .fetch (by decide) (by decide +kernel) rfl
  have hentry : Grammar.Entry .aggregations "s: SUM(v)" (.aggregation "s" a) := .aggregation rfl rfl
  have hsentence : Grammar.Sentence (tokens.map Token.lexeme) _ :=
    .body (.block hoperation (.cons (.entries (.cons hentry .nil)) .nil))
  have htext : Query.ofText text = .ok q := by
    rw [Query.ofText_of_tokens htokens]
    exact Query.ofTokens_iff.2 ⟨_, hsentence, rfl⟩
  obtain ⟨key, hkey⟩ := (Query.ofLiterals_of_ofText htext).exists_key
  have hselect : q.select engine.store engine.settings.maxDepth = .ok [large, half] := rfl
  have hsum : a.sum [large] = .ok (.int (0 + Double.overflowThreshold)) := rfl
  rw [Int.zero_add] at hsum
  have hclash : Number.Clash (.int Double.overflowThreshold) (.float (.ofDecimal false 5 (-1))) :=
    .intFloat (Int.natAbs_natCast _).ge
  have hoverflow : a.Overflows ([large] ++ half :: []) .integerTooLarge :=
    .clash (.inl rfl) hsum rfl hclash
  have hescapes : engine.Escapes text (.int 0) (.execution (.arithmetic .integerTooLarge)) :=
    .overflow htext hkey rfl ⟨[large, half], [], "s", a, [], hselect, rfl, nofun, hoverflow⟩
  exact run_eq_error_iff.2 (escapes_iff.1 hescapes)

end Engine

end PropertyGraph
