import Mathlib.Data.List.Nodup
import PropertyGraph.Proofs.Query.Key
import PropertyGraph.Proofs.Value.Literal

/-!
The keys of queries of literals. Such a query always has a key, and the key tells it from all
others: two of them have one key exactly if they have the same names, operation, target, order and
limit, and their clauses bind the same keys to the same values, in whatever order.
-/

namespace PropertyGraph

/-- Maps that bind the same have the same entries, in whatever order. -/
theorem OrderedMap.perm_entries_of_get? [DecidableEq κ] {first second : OrderedMap κ α}
    (h : ∀ key, first.get? key = second.get? key) : first.entries.Perm second.entries := by
  have hfirst : first.entries.Nodup := List.Nodup.of_map Prod.fst first.distinct
  have hsecond : second.entries.Nodup := List.Nodup.of_map Prod.fst second.distinct
  rw [List.perm_ext_iff_of_nodup hfirst hsecond]
  rintro ⟨key, value⟩
  rw [← get?_eq_some_iff, ← get?_eq_some_iff, h]

/-- Maps that bind the same are equal if their values are equal to themselves. -/
theorem OrderedMap.equalBy_of_get? [DecidableEq κ] {eq : α → α → Bool}
    {first second : OrderedMap κ α} (h : ∀ key, first.get? key = second.get? key)
    (hself : ∀ key value, first.get? key = some value → eq value value = true) :
    first.equalBy eq second = true := by
  rw [equalBy, Bool.and_eq_true, beq_iff_eq]
  refine ⟨(perm_entries_of_get? h).length_eq, all_entries_iff.2 fun key value hget => ?_⟩
  rw [← h, hget, Option.any_some]
  exact hself key value hget

namespace Query

/-- The queries are the same but for the order of the entries in their clauses. -/
structure SameBindings (a b : Query) : Prop where
  name : a.name = b.name
  intent : a.intent = b.intent
  operation : a.operation = b.operation
  target : a.target = b.target
  conditions : ∀ key, a.conditions.get? key = b.conditions.get? key
  aggregations : ∀ key, a.aggregations.get? key = b.aggregations.get? key
  filters : ∀ key, a.filters.get? key = b.filters.get? key
  sorting : a.sorting = b.sorting
  limit : a.limit = b.limit

/-- Conditions and filters compare with literals only, and the limit is one. -/
structure OfLiterals (q : Query) : Prop where
  limit : ∀ n, q.limit = some n → withinDigits n = true
  conditions : ∀ key value, q.conditions.get? key = some value → value.isLiteral = true
  filters : ∀ key c, q.filters.get? key = some c → c.value.isLiteral = true

/-- Texts are in a total order, so a list can be sorted by a text of each element. -/
theorem pairwise_mergeSort_by (text : α → String) (list : List α) :
    (list.mergeSort fun a b => (compare (text a) (text b)).isLE).Pairwise fun a b =>
      (compare (text a) (text b)).isLE = true := by
  refine List.pairwise_mergeSort ?_ ?_ list
  · intro a b c hab hbc
    exact Std.TransCmp.isLE_trans hab hbc
  · intro a b
    have hswap : compare (text b) (text a) = (compare (text a) (text b)).swap :=
      Std.OrientedCmp.eq_swap
    rw [hswap]
    cases compare (text a) (text b) <;> rfl

/-- The entries of a clause are sorted by their keys. -/
theorem clauseEntries_pairwise (clause : OrderedMap String α) :
    (clauseEntries .canonical clause).Pairwise fun a b => (compare a.1 b.1).isLE = true :=
  pairwise_mergeSort_by Prod.fst clause.entries

/-- Sorting leaves nothing of the order in which entries were written. -/
theorem clauseEntries_congr {first second : OrderedMap String α}
    (h : ∀ key, first.get? key = second.get? key) :
    clauseEntries .canonical first = clauseEntries .canonical second := by
  have hperm : (clauseEntries .canonical first).Perm (clauseEntries .canonical second) :=
    (List.mergeSort_perm ..).trans
      ((OrderedMap.perm_entries_of_get? h).trans (List.mergeSort_perm ..).symm)
  refine List.Perm.eq_of_pairwise ?_ (clauseEntries_pairwise first)
    (clauseEntries_pairwise second) hperm
  -- The order is one of keys alone; it is antisymmetric because no two entries share a key.
  intro a b ha hb hab hba
  have hkey : a.1 = b.1 :=
    Std.LawfulEqCmp.eq_of_compare (Std.OrientedCmp.isLE_antisymm hab hba)
  have hfirst := OrderedMap.get?_eq_some_iff.2 (List.mem_mergeSort.1 ha)
  have hsecond := OrderedMap.get?_eq_some_iff.2 (List.mem_mergeSort.1 hb)
  rw [h, hkey, hsecond] at hfirst
  exact Prod.ext hkey (Option.some.inj hfirst).symm

theorem clauseToJson_congr {first second : OrderedMap String α}
    (h : ∀ key, first.get? key = second.get? key) (name : String)
    (entryToJson : α → Except JsonError Json) :
    clauseToJson .canonical name first entryToJson =
      clauseToJson .canonical name second entryToJson := by
  unfold clauseToJson
  rw [OrderedMap.isEmpty_congr h, clauseEntries_congr h]

theorem SameBindings.key_eq {a b : Query} (h : SameBindings a b) : a.key = b.key := by
  unfold Query.key toJson
  rw [clauseToJson_congr h.conditions, clauseToJson_congr h.aggregations,
    clauseToJson_congr h.filters, h.name, h.intent, h.operation, h.target, h.sorting, h.limit]

/-- Queries of the same bindings are equal, unless they compare with a value that is not equal to
itself. -/
theorem SameBindings.equal {a b : Query} (h : SameBindings a b)
    (hconditions : ∀ key value, a.conditions.get? key = some value → value.equal value = true)
    (hfilters : ∀ key c, a.filters.get? key = some c → c.value.equal c.value = true) :
    a.equal b = true := by
  have hcomparisons : a.filters.equalBy Comparison.equal b.filters = true := by
    refine OrderedMap.equalBy_of_get? h.filters fun key c hget => ?_
    rw [Comparison.equal, hfilters key c hget]
    simp
  have haggregations : a.aggregations.equalBy (fun x y => x = y) b.aggregations = true :=
    OrderedMap.equalBy_of_get? h.aggregations fun _ _ _ => decide_eq_true rfl
  rw [Query.equal, OrderedMap.equalBy_of_get? h.conditions hconditions, haggregations,
    hcomparisons, h.name, h.intent, h.operation, h.target, h.sorting, h.limit]
  simp

/-- A query of literals has a key. -/
theorem OfLiterals.exists_key {q : Query} (h : OfLiterals q) : ∃ key, q.key = .ok key :=
  exists_key_of_values h.limit
    (fun key value hget => Value.exists_toJson_of_isLiteral _ value (h.conditions key value hget))
    (fun key c hget => Value.exists_toJson_of_isLiteral _ c.value (h.filters key c hget))

/-- Queries of literals have one key exactly if they have the same bindings. -/
theorem OfLiterals.key_eq_iff {a b : Query} (ha : OfLiterals a) (hb : OfLiterals b) :
    a.key = b.key ↔ SameBindings a b := by
  refine ⟨fun h => ?_, SameBindings.key_eq⟩
  obtain ⟨key, hkey⟩ := ha.exists_key
  have halike := keyAlike_of_key hkey (h ▸ hkey)
  refine { halike with conditions := fun key => ?_, filters := fun key => ?_ }
  · refine eq_of_rel (halike.conditions key) ?_
    rintro v w hv hw ⟨json, hvJson, hwJson⟩
    exact Value.eq_of_toJson_of_isLiteral (ha.conditions key v hv) (hb.conditions key w hw)
      hvJson hwJson
  · refine eq_of_rel (halike.filters key) ?_
    rintro ⟨op, v⟩ ⟨op', w⟩ hc hd ⟨hop, json, hvJson, hwJson⟩
    rw [Comparison.mk.injEq]
    exact ⟨hop, Value.eq_of_toJson_of_isLiteral (ha.filters key _ hc) (hb.filters key _ hd)
      hvJson hwJson⟩

end Query

end PropertyGraph
