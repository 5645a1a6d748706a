import PropertyGraph.Proofs.Language.Draft
import PropertyGraph.Proofs.Language.Scalar
import PropertyGraph.Proofs.Query.Canonical
import PropertyGraph.Proofs.Value.Part

/-!
The queries of texts compare with literals only, so their keys tell them apart.
-/

namespace PropertyGraph

namespace Literal

theorem isLiteral_of_readScalar {text : List Char} {value : Value}
    (h : readScalar text = .ok value) : value.isLiteral = true := by
  cases scalar_of_readScalar h with
  | int hwithin => exact hwithin
  | _ => rfl

/-- Reading goes into brackets, and ends at scalars. -/
theorem read_induction {motive : Value → Prop}
    (scalar : ∀ text value, readScalar text = .ok value → motive value)
    (tuple : ∀ items : List Value, (∀ item ∈ items, motive item) → motive (.tuple items))
    {text : List Char} {value : Value} (h : read text = .ok value) : motive value := by
  induction hlength : text.length using Nat.strongRecOn generalizing text value with
  | ind n ih =>
      subst hlength
      cases hbracketed : bracketed? (core text) with
      | none =>
          rw [read_of_not_bracketed? hbracketed] at h
          exact scalar _ _ h
      | some inner =>
          rw [read_of_bracketed? hbracketed] at h
          obtain ⟨values, hvalues, hvalue⟩ := exists_of_bind (f := fun v => .ok (Value.tuple v)) h
          obtain rfl := Except.ok.inj hvalue
          refine tuple _ fun item hitem => ?_
          obtain ⟨part, hpart, hread⟩ := (mem_of_mapM hvalues).1 hitem
          exact ih _ (length_lt_of_mem_items hbracketed hpart) hread rfl

theorem isLiteral_of_read {text : List Char} {value : Value} (h : read text = .ok value) :
    value.isLiteral = true :=
  read_induction (fun _ _ => isLiteral_of_readScalar) (fun _ => Value.allLiteral_iff.2) h

theorem not_isNan_of_numberValue {negative : Bool} {whole : List Char}
    {fraction? : Option (List Char)} {value : Value}
    (h : numberValue negative whole fraction? = .ok value) : ¬ value.IsNan := by
  rintro rfl
  unfold numberValue at h
  split at h
  · split at h <;> cases h
  · exact Double.ofDecimal_ne_nan _ _ _ (Value.float.inj (Except.ok.inj h))

theorem not_isNan_of_readDate {text : List Char} {value : Value}
    (h : readDate text = .ok value) : ¬ value.IsNan := by
  rintro rfl
  unfold readDate at h
  generalize hfound : (if text.length = 10 then _ else _ : Option Value) = found at h
  cases found with
  | none => cases h
  | some found =>
      obtain rfl := Except.ok.inj h
      split at hfound
      · obtain ⟨_, -, hvalue⟩ := Option.map_eq_some_iff.1 hfound
        cases hvalue
      · obtain ⟨_, -, hvalue⟩ := Option.map_eq_some_iff.1 hfound
        cases hvalue

theorem not_isNan_of_readScalar {text : List Char} {value : Value}
    (h : readScalar text = .ok value) : ¬ value.IsNan := by
  unfold readScalar at h
  split at h
  · exact Except.ok.inj h ▸ Value.noConfusion
  · split at h
    · exact Except.ok.inj h ▸ Value.noConfusion
    · split at h
      · exact not_isNan_of_numberValue h
      · split at h
        · exact not_isNan_of_readDate h
        · exact Except.ok.inj h ▸ Value.noConfusion

/-- What is read is equal to itself: it is not NaN, and NaN is no item of it. -/
theorem equal_self_of_read {text : List Char} {value : Value} (h : read text = .ok value) :
    value.equal value = true := by
  refine read_induction (motive := fun value => value.equal value = true)
    (fun text value hvalue => ?_) (fun items hitems => ?_) h
  · have hnan := not_isNan_of_readScalar hvalue
    have hscalar := scalar_of_readScalar hvalue
    have hne : ∀ items, value ≠ .tuple items := by
      rintro items rfl
      cases hscalar
    have hself : value.same value = true := by
      refine Value.same_self ?_ fun hpart => hnan ((Value.hasPart_iff_of_ne hne).1 hpart)
      cases hscalar <;> rfl
    exact (Bool.and_eq_true _ _ ▸ hself).2
  · rw [Value.equal]
    induction items with
    | nil => rfl
    | cons item items ih =>
        obtain ⟨hitem, hrest⟩ := List.forall_mem_cons.1 hitems
        rw [Value.equalItems, hitem, ih hrest]
        rfl

end Literal

namespace Assignment

/-- The values that are compared with pass a test, and the limit is one that is written. -/
def ComparesWith (test : Value → Prop) : Assignment → Prop
  | .condition _ value => test value
  | .filter _ c => test c.value
  | .limit n => withinDigits n = true
  | _ => True

theorem exists_of_last {pick : Assignment → Option α} {assignments : List Assignment} {value : α}
    (h : last pick assignments = some value) : ∃ a ∈ assignments, pick a = some value := by
  obtain ⟨a, ha, hpick⟩ := List.exists_of_findSome?_eq_some h
  exact ⟨a, List.mem_reverse.1 ha, hpick⟩

end Assignment

section

variable {test : Value → Prop}
  (hread : ∀ (text : List Char) (value : Value), Literal.read text = .ok value → test value)

namespace Grammar

variable {lexemes : List Lexeme} {assignments : List Assignment}

include hread

theorem Entry.comparesWith {part : Section} {chunk : String} {a : Assignment}
    (h : Entry part chunk a) : a.ComparesWith test := by
  cases h with
  | condition _ hvalue => exact hread _ _ hvalue
  | aggregation _ _ => trivial
  | filter _ hcomparison =>
      obtain ⟨value, hvalue, hc⟩ := exists_of_bind hcomparison
      rw [← Except.ok.inj hc]
      exact hread _ _ hvalue

theorem Body.comparesWith (h : Body lexemes assignments) :
    ∀ a ∈ assignments, a.ComparesWith test := by
  refine h.forall_mem (fun _ _ h => ?_) (fun _ _ _ => Entry.comparesWith hread) fun _ _ h => ?_
  · cases h with
    | limit _ _ hn => exact Numeral.withinDigits_of_natural hn
    | _ => trivial
  · cases h
    trivial

theorem Sentence.comparesWith (h : Sentence lexemes assignments) :
    ∀ a ∈ assignments, a.ComparesWith test := by
  induction h with
  | metadata _ hmetadata _ ih =>
      refine List.forall_mem_cons.2 ⟨?_, ih⟩
      cases hmetadata <;> trivial
  | body hbody => exact hbody.comparesWith hread

end Grammar

namespace Query

theorem HoldsLast.conditions_of_comparesWith {q : Query} {assignments : List Assignment}
    (h : HoldsLast assignments q) (htest : ∀ a ∈ assignments, a.ComparesWith test) (key : String)
    (value : Value) (hget : q.conditions.get? key = some value) : test value := by
  rw [h.conditions] at hget
  obtain ⟨a, ha, hpick⟩ := Assignment.exists_of_last hget
  have hcompared := htest a ha
  cases a with
  | condition other held =>
      obtain rfl := Option.some.inj (Option.ite_none_right_eq_some.1 hpick).2
      exact hcompared
  | _ => cases hpick

theorem HoldsLast.filters_of_comparesWith {q : Query} {assignments : List Assignment}
    (h : HoldsLast assignments q) (htest : ∀ a ∈ assignments, a.ComparesWith test) (key : String)
    (c : Comparison) (hget : q.filters.get? key = some c) : test c.value := by
  rw [h.filters] at hget
  obtain ⟨a, ha, hpick⟩ := Assignment.exists_of_last hget
  have hcompared := htest a ha
  cases a with
  | filter other held =>
      obtain rfl := Option.some.inj (Option.ite_none_right_eq_some.1 hpick).2
      exact hcompared
  | _ => cases hpick

theorem HoldsLast.limit_of_comparesWith {q : Query} {assignments : List Assignment}
    (h : HoldsLast assignments q) (htest : ∀ a ∈ assignments, a.ComparesWith test) (n : Int)
    (hlimit : q.limit = some n) : withinDigits n = true := by
  rw [h.limit] at hlimit
  obtain ⟨a, ha, hpick⟩ := Assignment.exists_of_last hlimit
  have hcompared := htest a ha
  cases a with
  | limit n =>
      obtain rfl := Option.some.inj hpick
      exact hcompared
  | _ => cases hpick

include hread

/-- What holds of all that is read holds of all that the query of a text compares with, and its limit
is one that is written. -/
theorem compared_of_ofText {text : String} {q : Query} (h : ofText text = .ok q) :
    (∀ key value, q.conditions.get? key = some value → test value) ∧
      (∀ key c, q.filters.get? key = some c → test c.value) ∧
      ∀ n, q.limit = some n → withinDigits n = true := by
  obtain ⟨tokens, -, hquery⟩ := exists_of_bind h
  obtain ⟨assignments, hsentence, rfl⟩ := ofTokens_iff.1 hquery
  have hlast := holdsLast_applyAll assignments
  have htest := hsentence.comparesWith hread
  exact ⟨hlast.conditions_of_comparesWith htest, hlast.filters_of_comparesWith htest,
    hlast.limit_of_comparesWith htest⟩

end Query

end

namespace Query

theorem ofLiterals_of_ofText {text : String} {q : Query} (h : ofText text = .ok q) :
    OfLiterals q := by
  obtain ⟨hconditions, hfilters, hlimit⟩ :=
    compared_of_ofText (fun _ _ => Literal.isLiteral_of_read) h
  exact ⟨hlimit, hconditions, hfilters⟩

/-- The queries of two texts have keys, and one key exactly if they are the same but for the order
of the entries in their clauses: literals of different types have different keys, and so have
literals of one type that are different. -/
theorem key_of_texts {first second : String} {a b : Query} (ha : ofText first = .ok a)
    (hb : ofText second = .ok b) :
    ∃ key other, a.key = .ok key ∧ b.key = .ok other ∧ (key = other ↔ SameBindings a b) := by
  have hliterals := ofLiterals_of_ofText ha
  have hliterals' := ofLiterals_of_ofText hb
  obtain ⟨key, hkey⟩ := hliterals.exists_key
  obtain ⟨other, hother⟩ := hliterals'.exists_key
  refine ⟨key, other, hkey, hother, ?_⟩
  rw [← hliterals.key_eq_iff hliterals', hkey, hother, Except.ok.injEq]

/-- Entries in another order leave the key as it is. A text in the place of a number does not. -/
theorem key_of_reordered :
    ∃ a b c key other,
      ofText "WHERE \x7b n: 1\ns: x \x7d" = .ok a ∧
      ofText "WHERE \x7b s: x \x7d\nWHERE \x7b n: 1 \x7d" = .ok b ∧
      ofText "WHERE \x7b n: \"1\"\ns: x \x7d" = .ok c ∧
      a.key = .ok key ∧ b.key = .ok key ∧ c.key = .ok other ∧ key ≠ other := by
  have hn : Grammar.Entry .conditions "n: 1" (.condition "n" (.int 1)) :=
    .condition rfl (Literal.read_of_not_bracketed? rfl)
  have hs : Grammar.Entry .conditions "s: x" (.condition "s" (.str "x")) :=
    .condition rfl (Literal.read_of_not_bracketed? rfl)
  have hquoted : Grammar.Entry .conditions "n: \"1\"" (.condition "n" (.str "1")) :=
    .condition rfl (Literal.read_of_not_bracketed? rfl)
  have hsentence {text : String} {tokens : List Token} {assignments : List Assignment}
      (htokens : Token.ofText text.toList = .ok tokens)
      (hitems : Grammar.Items (tokens.map Token.lexeme) assignments) :
      ofText text = .ok (Assignment.applyAll {} assignments) := by
    rw [ofText_of_tokens htokens]
    exact ofTokens_iff.2 ⟨assignments, .body (.items hitems), rfl⟩
  have ha : ofText "WHERE \x7b n: 1\ns: x \x7d" = .ok _ :=
    hsentence rfl (.cons (.entries (.cons hn (.cons hs .nil))) .nil)
  have hb : ofText "WHERE \x7b s: x \x7d\nWHERE \x7b n: 1 \x7d" = .ok _ :=
    hsentence rfl (.cons (.entries (.cons hs .nil)) (.cons (.entries (.cons hn .nil)) .nil))
  have hc : ofText "WHERE \x7b n: \"1\"\ns: x \x7d" = .ok _ :=
    hsentence rfl (.cons (.entries (.cons hquoted (.cons hs .nil))) .nil)
  obtain ⟨key, key', hkey, hkey', hsame⟩ := key_of_texts ha hb
  obtain ⟨key'', other, hkey'', hother, hdiffer⟩ := key_of_texts ha hc
  obtain rfl := Except.ok.inj (hkey.symm.trans hkey'')
  have hreordered : key = key' := by
    refine hsame.2 ⟨rfl, rfl, rfl, rfl, fun name => ?_, fun _ => rfl, fun _ => rfl, rfl, rfl⟩
    by_cases hname : "n" = name
    · subst hname
      rfl
    · simp [Assignment.apply, hname]
  refine ⟨_, _, _, key, other, ha, hb, hc, hkey, hreordered ▸ hkey', hother, fun h => ?_⟩
  have hvalue : some (Value.int 1) = some (.str "1") := (hdiffer.1 h).conditions "n"
  cases hvalue

end Query

end PropertyGraph
