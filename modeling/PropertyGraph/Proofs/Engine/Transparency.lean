import Mathlib.Data.List.Forall2
import Mathlib.Data.List.Induction
import Mathlib.Data.List.Pairwise
import PropertyGraph.Proofs.Engine.Answers
import PropertyGraph.Proofs.Engine.Evaluate
import PropertyGraph.Proofs.Query.Key

/-!
Whether a cache shows. On a store that does not change, while the clock stands still, an engine
with a cache answers as one without does, but for one thing: a query with a list in the place of a
tuple has the key of the query with the tuple, and gets its answer.
-/

namespace PropertyGraph

namespace Value

/-- The values differ, but only in lists that stand for tuples. -/
def Relisted (v w : Value) : Prop := v ≠ w ∧ v.asLists = w.asLists

end Value

namespace Query

/-- No value of the query holds a mapping. -/
structure Plain (q : Query) : Prop where
  conditions : ∀ key value, q.conditions.get? key = some value → value.isPlain = true
  filters : ∀ key c, q.filters.get? key = some c → c.value.isPlain = true

/-- A list stands in the one query where a tuple stands in the other. -/
def Relisted (a b : Query) : Prop :=
  (∃ key v w, a.conditions.get? key = some v ∧ b.conditions.get? key = some w ∧ v.Relisted w) ∨
    ∃ key c d, a.filters.get? key = some c ∧ b.filters.get? key = some d ∧
      c.value.Relisted d.value

/-- Queries of one key agree in all that an answer depends on, unless one is a relisted other. -/
theorem alike_of_key {a b : Query} {key : String} (ha : a.key = .ok key) (hb : b.key = .ok key)
    (hplainA : a.Plain) (hplainB : b.Plain) (hrelisted : ¬ a.Relisted b) : a.Alike b := by
  have hkeys := keyAlike_of_key ha hb
  have hvalue : ∀ {v w : Value} {json : Json}, v.isPlain = true → w.isPlain = true →
      v.toJson .canonical = .ok json → w.toJson .canonical = .ok json → ¬ v.Relisted w → v = w := by
    intro v w json hv hw hvJson hwJson hnot
    by_contra hne
    exact hnot ⟨hne, Value.asLists_eq_of_toJson v w hv hw hvJson hwJson⟩
  refine ⟨hkeys.operation, hkeys.target, fun name => ?_, hkeys.aggregations, fun name => ?_,
    hkeys.sorting, hkeys.limit⟩
  · refine eq_of_rel (hkeys.conditions name) ?_
    rintro v w hv hw ⟨json, hvJson, hwJson⟩
    exact hvalue (hplainA.conditions name v hv) (hplainB.conditions name w hw) hvJson hwJson
      fun h => hrelisted (.inl ⟨name, v, w, hv, hw, h⟩)
  · refine eq_of_rel (hkeys.filters name) ?_
    rintro c d hc hd ⟨hop, json, hcJson, hdJson⟩
    have hvalues := hvalue (hplainA.filters name c hc) (hplainB.filters name d hd) hcJson hdJson
      fun h => hrelisted (.inr ⟨name, c, d, hc, hd, h⟩)
    cases c
    cases d
    simp_all

end Query

/-- The same error, or answers that hold the same. -/
def AnswersAgree :
    Except ExecutionError Answer → Except ExecutionError Answer → Prop
  | .ok answer, .ok other => answer.Same other
  | .error e, .error f => e = f
  | _, _ => False

theorem AnswersAgree.refl (result : Except ExecutionError Answer) :
    AnswersAgree result result := by
  cases result with
  | error e => exact rfl
  | ok answer => exact Answer.Same.refl answer

namespace Engine

/-- The answer that the earlier query leaves behind for its key does for the later one. -/
def Serves (engine : Engine) (earlier later : Query) : Prop :=
  ∀ key answer, earlier.key = .ok key → later.key = .ok key →
    engine.evaluate earlier = .ok answer → AnswersAgree (.ok answer) (engine.evaluate later)

theorem serves_of_not_relisted (engine : Engine) {earlier later : Query}
    (hearlier : earlier.Plain) (hlater : later.Plain) (h : ¬ earlier.Relisted later) :
    engine.Serves earlier later := by
  intro key answer hkey hkey' hanswer
  obtain ⟨other, hother, hsame⟩ :=
    (Query.alike_of_key hkey hkey' hearlier hlater h).evaluate hanswer
  have hevaluate : engine.evaluate later = .ok other := hother
  rw [hevaluate]
  exact hsame

theorem agree_of_serves {engine : Engine} {asked : List Query} {q : Query}
    (h : ∀ earlier ∈ asked, engine.Serves earlier q) :
    AnswersAgree (engine.answerAfter asked q) (engine.answerAfresh q) := by
  cases hkey : q.key with
  | error e =>
      rw [answerAfter, answerAfresh, hkey]
      exact rfl
  | ok key =>
      rw [answerAfresh_of_key hkey]
      cases hfirst : engine.firstAnswer key asked with
      | none =>
          rw [answerAfter_of_none hkey hfirst]
          exact AnswersAgree.refl _
      | some answer =>
          rw [answerAfter_of_some hkey hfirst]
          obtain ⟨earlier, hearlier, hkey', hevaluate⟩ := exists_of_firstAnswer hfirst
          exact h earlier hearlier key answer hkey' hkey hevaluate

theorem forall₂_concat {R : α → β → Prop} {xs : List α} {ys : List β} {x : α} {y : β} :
    List.Forall₂ R (xs ++ [x]) (ys ++ [y]) ↔ List.Forall₂ R xs ys ∧ R x y := by
  rw [← List.forall₂_reverse_iff, List.reverse_append, List.reverse_append]
  simp [List.forall₂_reverse_iff, and_comm]

/-- The answers agree all along exactly if they agree up to the last query and there too. -/
theorem agree_concat_iff {engine : Engine} {asked : List Query} {q : Query} :
    List.Forall₂ AnswersAgree (engine.answersAfter [] (asked ++ [q]))
        ((asked ++ [q]).map engine.answerAfresh) ↔
      List.Forall₂ AnswersAgree (engine.answersAfter [] asked) (asked.map engine.answerAfresh) ∧
        AnswersAgree (engine.answerAfter asked q) (engine.answerAfresh q) := by
  rw [answersAfter_concat, List.nil_append, List.map_append]
  exact forall₂_concat

/-- Where all answers so far agreed, the first answer to a key does for every query of it. -/
theorem firstAnswer_same {engine : Engine} {asked : List Query}
    (h : List.Forall₂ AnswersAgree (engine.answersAfter [] asked) (asked.map engine.answerAfresh))
    {earlier : Query} (hearlier : earlier ∈ asked) {key : String} {answer : Answer}
    (hkey : earlier.key = .ok key) (hevaluate : engine.evaluate earlier = .ok answer) :
    ∃ first, engine.firstAnswer key asked = some first ∧ first.Same answer := by
  -- From the end: the last query found the first answer to its key, or was given an earlier one.
  induction asked using List.reverseRecOn with
  | nil => exact absurd hearlier List.not_mem_nil
  | append_singleton asked q ih =>
      obtain ⟨hasked, hlast⟩ := agree_concat_iff.1 h
      rw [firstAnswer_concat]
      rcases List.mem_append.1 hearlier with hearlier | hearlier
      · obtain ⟨first, hfirst, hsame⟩ := ih hasked hearlier
        exact ⟨first, by rw [hfirst, Option.some_or], hsame⟩
      · obtain rfl := List.mem_singleton.1 hearlier
        rw [answerAfresh_of_key hkey, hevaluate] at hlast
        cases hfirst : engine.firstAnswer key asked with
        | none =>
            rw [firstAnswer_singleton hkey, if_pos rfl, hevaluate]
            exact ⟨answer, rfl, Answer.Same.refl answer⟩
        | some first =>
            rw [answerAfter_of_some hkey hfirst] at hlast
            exact ⟨first, rfl, hlast⟩

theorem serves_of_agree {engine : Engine} {asked : List Query} {q : Query}
    (h : List.Forall₂ AnswersAgree (engine.answersAfter [] asked) (asked.map engine.answerAfresh))
    (hlast : AnswersAgree (engine.answerAfter asked q) (engine.answerAfresh q)) {earlier : Query}
    (hearlier : earlier ∈ asked) : engine.Serves earlier q := by
  intro key answer hkey hkey' hevaluate
  obtain ⟨first, hfirst, hsame⟩ := firstAnswer_same h hearlier hkey hevaluate
  rw [answerAfter_of_some hkey' hfirst, answerAfresh_of_key hkey'] at hlast
  cases hlater : engine.evaluate q with
  | error e => rw [hlater] at hlast; exact hlast
  | ok later =>
      rw [hlater] at hlast
      exact hsame.symm.trans hlast

/-- The answers agree all along exactly if what a query leaves behind does for all later ones. -/
theorem agree_iff_serves {engine : Engine} {queries : List Query} :
    List.Forall₂ AnswersAgree (engine.answersAfter [] queries) (queries.map engine.answerAfresh) ↔
      queries.Pairwise engine.Serves := by
  induction queries using List.reverseRecOn with
  | nil => simp [answersAfter]
  | append_singleton asked q ih =>
      rw [agree_concat_iff, List.pairwise_append, ← ih]
      constructor
      · rintro ⟨hasked, hlast⟩
        refine ⟨hasked, List.pairwise_singleton _ _, ?_⟩
        intro earlier hearlier later hlater
        rw [List.mem_singleton.1 hlater]
        exact serves_of_agree hasked hlast hearlier
      · rintro ⟨hasked, -, hserves⟩
        exact ⟨hasked, agree_of_serves fun earlier hearlier =>
          hserves earlier hearlier q (List.mem_singleton_self q)⟩

/-- With a cache and without one, the answers to a sequence of queries agree exactly if no query
that is a relisted earlier one is to be answered otherwise than that one was; or if, under a
lifetime below zero, answers are over as soon as they are cached. -/
theorem cached_answers_agree_iff (settings : Settings) {now : Number} (store : Store)
    {queries : List Query} (hplain : ∀ q ∈ queries, q.Plain) :
    let cached := ofStore { settings with cacheEnabled := true } store
    let uncached := ofStore { settings with cacheEnabled := false } store
    List.Forall₂ AnswersAgree (cached.answers now queries) (uncached.answers now queries) ↔
      (¬ Number.float settings.cacheLifetime < now - now →
        queries.Pairwise fun earlier later =>
          earlier.Relisted later → uncached.Serves earlier later) := by
  intro cached uncached
  have hevaluate : cached.evaluate = uncached.evaluate := rfl
  have huncached : uncached.answers now queries = queries.map uncached.answerAfresh :=
    answers_of_disabled rfl now queries
  by_cases hfleeting : Number.float settings.cacheLifetime < now - now
  · have hcached : cached.answers now queries = queries.map cached.answerAfresh :=
      (hasExpired_ofStore { settings with cacheEnabled := true } store hfleeting).answers queries
    rw [hcached, huncached, answerAfresh_congr hevaluate]
    exact iff_of_true (List.forall₂_same.2 fun result _ => AnswersAgree.refl result)
      fun hlasting => absurd hfleeting hlasting
  · have hcached : cached.answers now queries = cached.answersAfter [] queries :=
      (hasAnswered_ofStore { settings with cacheEnabled := true } store rfl hfleeting).answers
        queries
    rw [hcached, huncached, answersAfter_congr hevaluate, agree_iff_serves, imp_iff_right hfleeting]
    refine List.Pairwise.iff_of_mem fun {earlier later} hearlier hlater => ?_
    constructor
    · intro h _
      exact h
    · intro h
      by_cases hrelisted : earlier.Relisted later
      · exact h hrelisted
      · exact serves_of_not_relisted uncached (hplain _ hearlier) (hplain _ hlater) hrelisted

/-- A path can be a list or a tuple: the one walk has the answer of the other. -/
theorem cached_walks_agree :
    let first : Node :=
      { id := .str "a", type := "t", edges := [{ relationship := "LINKS", target := .str "b" }] }
    let second : Node := { id := .str "b", type := "t" }
    let settings : Settings := {}
    let store := ((start settings).performAll [.add first, .add second]).store
    let walk (path : Value) : Query :=
      { operation := .traverse
        conditions := .ofList [("start", .str "a"), ("path", path), ("depth", .int 1)] }
    let queries := [walk (.tuple [.str "LINKS"]), walk (.list [.str "LINKS"])]
    (∀ q ∈ queries, q.Plain) ∧
      List.Forall₂ AnswersAgree
        ((ofStore { settings with cacheEnabled := true } store).answers (.int 0) queries)
        ((ofStore { settings with cacheEnabled := false } store).answers (.int 0) queries) := by
  intro first second settings store walk queries
  have hplain : ∀ q ∈ queries, q.Plain := by
    have hwalk : ∀ path : Value, path.isPlain = true → (walk path).Plain := by
      intro path hpath
      constructor
      · intro key value hget
        have hmem := OrderedMap.mem_entries_of_get? hget
        have hentries : (walk path).conditions.entries =
            [("start", .str "a"), ("path", path), ("depth", .int 1)] := rfl
        rw [hentries] at hmem
        simp only [List.mem_cons, Prod.mk.injEq, List.not_mem_nil, or_false] at hmem
        rcases hmem with ⟨-, rfl⟩ | ⟨-, rfl⟩ | ⟨-, rfl⟩
        · rfl
        · exact hpath
        · rfl
      · intro key c hget
        cases hget
    intro q hq
    simp only [queries, List.mem_cons, List.not_mem_nil, or_false] at hq
    rcases hq with rfl | rfl <;> exact hwalk _ rfl
  refine ⟨hplain, (cached_answers_agree_iff settings store hplain).2 fun _ => ?_⟩
  have hevaluate : ∀ path, path = .tuple [.str "LINKS"] ∨ path = .list [.str "LINKS"] →
      (ofStore { settings with cacheEnabled := false } store).evaluate (walk path) =
        .ok (.rows [second.toRow]) := by
    rintro path (rfl | rfl) <;> rfl
  rw [List.pairwise_pair]
  intro _ key answer _ _ hanswer
  rw [hevaluate _ (.inl rfl)] at hanswer
  rw [← hanswer, hevaluate _ (.inr rfl)]
  exact AnswersAgree.refl _

/-- A list has the key of a tuple, and so the answer of a query for one: none of the nodes that hold
the tuple. -/
theorem cached_answer_of_relisted :
    let node : Node :=
      { id := .str "n", type := "t", properties := .ofList [("p", .tuple [.int 1, .int 2])] }
    let store := ((start {}).perform (.add node)).store
    let query (value : Value) : Query := { target := "t", conditions := .ofList [("p", value)] }
    let queries := [query (.list [.int 1, .int 2]), query (.tuple [.int 1, .int 2])]
    (ofStore { cacheEnabled := true } store).answers (.int 0) queries =
        [.ok (.rows []), .ok (.rows [])] ∧
      (ofStore { cacheEnabled := false } store).answers (.int 0) queries =
        [.ok (.rows []), .ok (.rows [node.toRow])] := by
  intro node store query queries
  obtain ⟨key, hkey⟩ : ∃ key, ∀ value,
      value.toJson .canonical = .ok (.array [.int 1, .int 2]) → (query value).key = .ok key := by
    refine ⟨String.ofList (Query.object .canonical [("name", .str ""), ("intent", .str ""),
      ("operation", .str Operation.fetch.tag), ("target", .str "t"),
      ("where", .object [("p", .array [.int 1, .int 2])])]).compact, fun value hvalue => ?_⟩
    have hsorted : JsonStyle.canonical.sortMembers = true := rfl
    simp [query, Query.key, Query.toJson, Query.clauseToJson, Query.clauseEntries,
      Query.limitToJson, hsorted, OrderedMap.ofList, OrderedMap.insert, OrderedMap.isEmpty,
      OrderedMap.bind, hvalue, bind, Except.bind, pure, Except.pure]
  have hitems : Value.toJsonItems .canonical [.int 1, .int 2] = .ok [.int 1, .int 2] := by
    have hone : withinDigits 1 = true := by decide +kernel
    have htwo : withinDigits 2 = true := by decide +kernel
    simp only [Value.toJsonItems, Value.toJson_int_eq_ok_iff.2 ⟨hone, rfl⟩,
      Value.toJson_int_eq_ok_iff.2 ⟨htwo, rfl⟩]
    rfl
  have hlist := hkey (.list [.int 1, .int 2]) (by rw [Value.toJson, hitems]; rfl)
  have htuple := hkey (.tuple [.int 1, .int 2]) (by rw [Value.toJson, hitems]; rfl)
  have hnone : ∀ settings, (ofStore settings store).evaluate (query (.list [.int 1, .int 2])) =
      .ok (.rows []) := fun _ => rfl
  have hfound : ∀ settings, (ofStore settings store).evaluate (query (.tuple [.int 1, .int 2])) =
      .ok (.rows [node.toRow]) := fun _ => rfl
  have hlasting : ¬ Number.float ({} : Settings).cacheLifetime < .int 0 - .int 0 := by
    decide +kernel
  constructor
  · refine ((hasAnswered_ofStore {} store rfl hlasting).answers queries).trans ?_
    have hfirst : (ofStore {} store).firstAnswer key [query (.list [.int 1, .int 2])] =
        some (.rows []) := by
      rw [firstAnswer_singleton hlist, if_pos rfl, hnone]
      rfl
    show [_, _] = _
    rw [answerAfter_of_none hlist rfl, hnone]
    exact congrArg (fun last => [_, last]) (answerAfter_of_some htuple hfirst)
  · refine (answers_of_disabled rfl _ _).trans ?_
    simp only [queries, List.map_cons, List.map_nil, answerAfresh_of_key hlist,
      answerAfresh_of_key htuple, hnone, hfound]

end Engine

end PropertyGraph
