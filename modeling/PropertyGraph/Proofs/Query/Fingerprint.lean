import Mathlib.Data.List.Nodup
import Mathlib.Data.List.Perm.Subperm
import PropertyGraph.Proofs.Query.Canonical
import PropertyGraph.Proofs.Text.Case
import PropertyGraph.Query.Parts

/-!
Equal queries have one fingerprint. Equality compares clauses as maps, whatever the order of their
entries, so equal clauses have the same keys, and sorting leaves nothing of the order of these. The
values themselves are not hashed, so what counts as an equal value is of no consequence; a limit is
hashed as the number that it is.
-/

namespace PropertyGraph

namespace OrderedMap

variable {κ : Type u} {α : Type v} [DecidableEq κ] {eq : α → α → Bool}
  {first second : OrderedMap κ α}

/-- Both maps bind the same keys, to values that are equal. -/
def Alike (eq : α → α → Bool) (first second : OrderedMap κ α) : Prop :=
  ∀ key, Option.Rel (fun v w => eq v w = true) (first.get? key) (second.get? key)

theorem Alike.mem_keys_iff (h : Alike eq first second) {key : κ} :
    key ∈ first.keys ↔ key ∈ second.keys := by
  have hkey := h key
  rw [← not_iff_not, ← get?_eq_none_iff, ← get?_eq_none_iff]
  cases hfirst : first.get? key <;> cases hsecond : second.get? key <;>
    simp [hfirst, hsecond] at hkey ⊢

theorem Alike.perm_keys (h : Alike eq first second) : first.keys.Perm second.keys :=
  (List.perm_ext_iff_of_nodup first.nodup_keys second.nodup_keys).2 fun _ => h.mem_keys_iff

/-- As many entries on both sides, and an equal value for each entry of one side: then the other
side has no further keys. -/
theorem equalBy_iff : first.equalBy eq second = true ↔ Alike eq first second := by
  rw [equalBy, Bool.and_eq_true, beq_iff_eq, all_entries_iff]
  constructor
  · rintro ⟨hsize, hall⟩
    have hbound : ∀ {key v}, first.get? key = some v →
        ∃ w, second.get? key = some w ∧ eq v w = true :=
      fun hget => (Option.any_eq_true _ _).1 (hall _ _ hget)
    have hsubset : first.keys ⊆ second.keys := by
      intro key hkey
      obtain ⟨v, hv⟩ := mem_keys_iff.1 hkey
      obtain ⟨w, hw, -⟩ := hbound hv
      exact mem_keys_iff.2 ⟨w, hw⟩
    have hperm : first.keys.Perm second.keys := by
      refine (List.Nodup.subperm first.nodup_keys hsubset).perm_of_length_le ?_
      rw [← size_eq_length_keys, ← size_eq_length_keys]
      exact Nat.le_of_eq hsize.symm
    intro key
    cases hfirst : first.get? key with
    | none =>
        rw [get?_eq_none_iff, hperm.mem_iff, ← get?_eq_none_iff] at hfirst
        rw [hfirst]
        exact .none
    | some v =>
        obtain ⟨w, hw, heq⟩ := hbound hfirst
        rw [hw]
        exact .some heq
  · intro h
    refine ⟨?_, fun key v hget => ?_⟩
    · rw [size_eq_length_keys, size_eq_length_keys, h.perm_keys.length_eq]
    · have hkey := h key
      rw [hget] at hkey
      cases hsecond : second.get? key with
      | none => rw [hsecond] at hkey; cases hkey
      | some w =>
          rw [hsecond] at hkey
          obtain ⟨heq⟩ := hkey
          exact heq

end OrderedMap

namespace Value

theorem integer?_eq_some {v : Value} {n : Int} (h : v.integer? = some n) :
    v = .int n ∨ ∃ b : Bool, v = .bool b ∧ n = b.toNat := by
  cases v with
  | int m => exact .inl (congrArg _ (Option.some.inj h))
  | bool b => exact .inr ⟨b, rfl, (Option.some.inj h).symm⟩
  | _ => cases h

/-- Values that stand for integers are equal just if they stand for the same one. -/
theorem equal_of_integer? {v w : Value} {m n : Int} (hv : v.integer? = some m)
    (hw : w.integer? = some n) : v.equal w = decide (m = n) := by
  have hnumbers : v.equal w = (some (compare m n) == some .eq) := by
    rcases integer?_eq_some hv with rfl | ⟨b, rfl, rfl⟩ <;>
      rcases integer?_eq_some hw with rfl | ⟨c, rfl, rfl⟩ <;> rfl
  rw [hnumbers, Bool.eq_iff_iff, beq_iff_eq, Option.some.injEq, decide_eq_true_iff,
    Int.compare_eq_eq]

end Value

/-- The tag of an operation is a name of it. -/
theorem Operation.named_tag (name : String) : named (named name).tag = named name := by
  by_cases halias : String.ofList (Text.upper name.toList) = traverseAlias
  · rw [show named name = traverse from if_pos halias]
    decide +kernel
  · have hnamed : named name = ⟨String.ofList (Text.upper name.toList)⟩ := if_neg halias
    rw [hnamed, named, String.toList_ofList, Text.upper_upper]
    exact if_neg halias

namespace Query

/-- Sorting leaves nothing of the order in which texts stood. -/
theorem sortedTexts_congr {first second : List String} (h : first.Perm second) :
    sortedTexts first = sortedTexts second := by
  have hperm : (sortedTexts first).Perm (sortedTexts second) :=
    (List.mergeSort_perm ..).trans (h.trans (List.mergeSort_perm ..).symm)
  refine hperm.eq_of_pairwise (fun s t _ _ hst hts => ?_) (pairwise_mergeSort_by id first)
    (pairwise_mergeSort_by id second)
  have hcompare : compare s t = .eq := Std.OrientedCmp.isLE_antisymm hst hts
  exact Std.LawfulEqCmp.eq_of_compare hcompare

/-- The queries are equal in each of their parts: clauses as maps, limits by value. -/
structure SameParts (a b : Query) : Prop where
  name : a.name = b.name
  intent : a.intent = b.intent
  operation : a.operation = b.operation
  target : a.target = b.target
  conditions : OrderedMap.Alike Value.equal a.conditions b.conditions
  aggregations : OrderedMap.Alike (fun x y => x = y) a.aggregations b.aggregations
  filters : OrderedMap.Alike Comparison.equal a.filters b.filters
  sorting : a.sorting = b.sorting
  limit : a.limit = b.limit

theorem equal_iff_sameParts {a b : Query} : a.equal b = true ↔ SameParts a b := by
  simp only [equal, Bool.and_eq_true, decide_eq_true_iff, OrderedMap.equalBy_iff, and_assoc]
  constructor
  · rintro ⟨hname, hintent, hoperation, htarget, hconditions, haggregations, hfilters, hsorting,
      hlimit⟩
    exact ⟨hname, hintent, hoperation, htarget, hconditions, haggregations, hfilters, hsorting,
      hlimit⟩
  · intro h
    exact ⟨h.name, h.intent, h.operation, h.target, h.conditions, h.aggregations, h.filters,
      h.sorting, h.limit⟩

theorem SameParts.fingerprint_eq {a b : Query} (h : SameParts a b) :
    a.fingerprint = b.fingerprint := by
  unfold fingerprint
  rw [h.name, h.intent, h.operation, h.target, sortedTexts_congr h.conditions.perm_keys,
    sortedTexts_congr h.aggregations.perm_keys, sortedTexts_congr h.filters.perm_keys, h.sorting,
    h.limit]

namespace Parts

/-- Both sides give the same query part by part: operations by any of their names, absent clauses as
empty ones, limits by value. -/
structure SameParts (a b : Parts) : Prop where
  name : a.name = b.name
  intent : a.intent = b.intent
  operation : Operation.named a.operation = Operation.named b.operation
  target : a.target = b.target
  conditions : OrderedMap.Alike Value.equal (a.conditions.getD ∅) (b.conditions.getD ∅)
  aggregations : OrderedMap.Alike (fun x y => x = y) (a.aggregations.getD ∅) (b.aggregations.getD ∅)
  filters : OrderedMap.Alike Comparison.equal (a.filters.getD ∅) (b.filters.getD ∅)
  sorting : a.sorting = b.sorting
  limit : Option.Rel (fun v w => v.equal w = true) a.limit b.limit

theorem equalLimits_iff {v w : Option Value} :
    equalLimits v w = true ↔ Option.Rel (fun v w => v.equal w = true) v w := by
  cases v <;> cases w <;> simp [equalLimits]

theorem equal_iff_sameParts {a b : Parts} : a.equal b = true ↔ SameParts a b := by
  rw [equal, Bool.and_eq_true, Query.equal_iff_sameParts, equalLimits_iff]
  constructor
  · rintro ⟨h, hlimit⟩
    exact ⟨h.name, h.intent, h.operation, h.target, h.conditions, h.aggregations, h.filters,
      h.sorting, hlimit⟩
  · intro h
    exact ⟨⟨h.name, h.intent, h.operation, h.target, h.conditions, h.aggregations, h.filters,
      h.sorting, rfl⟩, h.limit⟩

theorem hashesLike_of_equal {a b : Parts} (h : a.equal b = true) : a.hashesLike b = true := by
  obtain ⟨hunlimited, hlimit⟩ := (Bool.and_eq_true _ _).mp h
  rw [hashesLike, (Query.equal_iff_sameParts.1 hunlimited).fingerprint_eq, hlimit]
  simp

/-- A query has the parts it is put together from, and a limit just if one is given. -/
theorem query?_eq_some {parts : Parts} {q : Query} (h : parts.query? = some q) :
    ∃ limit : Option Int, q = { parts.unlimited with limit := limit } ∧
      Option.Rel (fun v n => Value.integer? v = some n) parts.limit limit := by
  unfold query? at h
  cases hlimit : parts.limit with
  | none =>
      rw [hlimit] at h
      exact ⟨none, (Option.some.inj h).symm, .none⟩
  | some v =>
      rw [hlimit] at h
      obtain ⟨n, hn, rfl⟩ := Option.map_eq_some_iff.1 h
      exact ⟨some n, rfl, .some hn⟩

theorem equalLimits_eq {v w : Option Value} {m n : Option Int}
    (hv : Option.Rel (fun v n => Value.integer? v = some n) v m)
    (hw : Option.Rel (fun v n => Value.integer? v = some n) w n) :
    equalLimits v w = decide (m = n) := by
  cases hv with
  | none => cases hw <;> simp [equalLimits]
  | some hm =>
      cases hw with
      | none => simp [equalLimits]
      | some hn => simpa [equalLimits] using Value.equal_of_integer? hm hn

/-- The limits of two queries are one number just if the values that stood for them are equal. -/
theorem equal_of_query? {a b : Parts} {q r : Query} (hq : a.query? = some q)
    (hr : b.query? = some r) : q.equal r = a.equal b := by
  obtain ⟨m, rfl, hm⟩ := query?_eq_some hq
  obtain ⟨n, rfl, hn⟩ := query?_eq_some hr
  rw [equal, equalLimits_eq hm hn]
  simp [Query.equal, unlimited]

end Parts

/-- Queries are equal just if they give the same part by part, and then all that is hashed of them
is equal: the names, the operation, the target, the sorted keys, the order and the limit. Between
queries that the engine takes, equality is that of the parts and the fingerprint is the same. -/
theorem fingerprint_eq_of_equal (a b : Parts) :
    (a.equal b = true ↔ Parts.SameParts a b) ∧ (a.equal b = true → a.hashesLike b = true) ∧
      ∀ q r : Query, a.query? = some q → b.query? = some r →
        q.equal r = a.equal b ∧ (q.equal r = true → q.fingerprint = r.fingerprint) := by
  refine ⟨Parts.equal_iff_sameParts, Parts.hashesLike_of_equal, fun q r hq hr => ?_⟩
  exact ⟨Parts.equal_of_query? hq hr, fun h => (equal_iff_sameParts.1 h).fingerprint_eq⟩

/-- One as a truth value, an operation by its other name, a clause in another order and a clause
without entries. The engine takes the limit of the second query, and of the first one if it is an
integer. -/
theorem fingerprint_eq_of_equal_reordered :
    let a : Parts := {
      operation := "graph_query"
      conditions := some
        ((∅ : OrderedMap String Value).insert "depth" (.int 1) |>.insert "via" .null)
      limit := some (.float (.ofInt 1)) }
    let b : Parts := {
      operation := "GRAPH_TRAVERSE"
      conditions := some
        ((∅ : OrderedMap String Value).insert "via" .null |>.insert "depth" (.bool true))
      filters := some ∅
      limit := some (.bool true) }
    let c : Parts := { a with limit := some (.int 1) }
    (a.equal b = true ∧ a.hashesLike b = true) ∧
      ∃ q r : Query, c.query? = some q ∧ b.query? = some r ∧ q.equal r = true ∧
        q.fingerprint = r.fingerprint := by
  intro a b c
  have hequal : a.equal b = true := by decide +kernel
  refine ⟨⟨hequal, (fingerprint_eq_of_equal a b).2.1 hequal⟩, ?_⟩
  have hquery : ({ c.unlimited with limit := some 1 } : Query).equal
      { b.unlimited with limit := some 1 } = true := by decide +kernel
  exact ⟨_, _, rfl, rfl, hquery, ((fingerprint_eq_of_equal c b).2.2 _ _ rfl rfl).2 hquery⟩

end Query

end PropertyGraph
