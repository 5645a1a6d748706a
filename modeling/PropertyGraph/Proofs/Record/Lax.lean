import PropertyGraph.Proofs.OrderedMap
import PropertyGraph.Proofs.Record.Schema
import PropertyGraph.Record.Lax

/-!
The validation with which the program is run keeps what validation promises. A check that is put
together accepts exactly if its parts do, each at its place in the record.
-/

namespace PropertyGraph

theorem exists_of_forall₂ {R : α → β → Prop} {xs : List α} {ys : List β}
    (h : List.Forall₂ R xs ys) {y : β} (hy : y ∈ ys) : ∃ x, R x y := by
  induction h with
  | nil => cases hy
  | cons hfirst _ ih =>
      rcases List.mem_cons.1 hy with rfl | hy
      · exact ⟨_, hfirst⟩
      · exact ih hy

namespace Checked

section

variable {α β : Type u}

theorem seq_eq_accepted_iff {f : Checked (α → β)} {x : Checked α} {result : β} :
    f <*> x = accepted result ↔
      ∃ g value, f = accepted g ∧ x = accepted value ∧ g value = result := by
  cases f with
  | accepted g =>
      cases x with
      | accepted value => simp
      | refused places => exact iff_of_false refused_ne_accepted (by simp)
  | refused places => cases x <;> exact iff_of_false refused_ne_accepted (by simp)

@[simp] theorem within_eq_accepted_iff {step : Step} {x : Checked α} {value : α} :
    within step x = accepted value ↔ x = accepted value := by
  cases x with
  | accepted other => rfl
  | refused places => exact iff_of_false refused_ne_accepted nofun

@[simp] theorem ofOption_eq_accepted_iff {x : Option α} {value : α} :
    ofOption x = accepted value ↔ x = some value := by
  cases x with
  | some other => simp
  | none => exact iff_of_false refused_ne_accepted nofun

theorem pair_eq_accepted_iff {x : Checked α} {y : Checked β} {pair : α × β} :
    Prod.mk <$> x <*> y = accepted pair ↔ x = accepted pair.1 ∧ y = accepted pair.2 := by
  obtain ⟨a, b⟩ := pair
  rw [seq_eq_accepted_iff]
  simp only [map_eq_accepted_iff]
  constructor
  · rintro ⟨_, value, ⟨first, hfirst, rfl⟩, hvalue, hpair⟩
    obtain ⟨rfl, rfl⟩ := Prod.mk.inj hpair
    exact ⟨hfirst, hvalue⟩
  · rintro ⟨ha, hb⟩
    exact ⟨_, b, ⟨a, ha, rfl⟩, hb, rfl⟩

theorem cons_eq_accepted_iff {x : Checked α} {xs : Checked (List α)} {results : List α} :
    List.cons <$> x <*> xs = accepted results ↔
      ∃ first rest, x = accepted first ∧ xs = accepted rest ∧ results = first :: rest := by
  rw [seq_eq_accepted_iff]
  simp only [map_eq_accepted_iff]
  constructor
  · rintro ⟨_, rest, ⟨first, hfirst, rfl⟩, hrest, rfl⟩
    exact ⟨first, rest, hfirst, hrest, rfl⟩
  · rintro ⟨first, rest, hfirst, hrest, rfl⟩
    exact ⟨_, rest, ⟨first, hfirst, rfl⟩, hrest, rfl⟩

end

/-- A list is accepted if each of its elements is. -/
theorem allFrom_eq_accepted_iff {α β : Type} {check : α → Checked β} {position : Nat}
    {elements : List α} {results : List β} :
    allFrom check position elements = accepted results ↔
      List.Forall₂ (fun element result => check element = accepted result) elements results := by
  induction elements generalizing position results with
  | nil =>
      rw [List.forall₂_nil_left_iff, allFrom, accepted.injEq]
      exact eq_comm
  | cons element rest ih =>
      rw [allFrom, cons_eq_accepted_iff, List.forall₂_cons_left_iff]
      simp only [within_eq_accepted_iff, ih]

variable {α : Type} {check : Value → Checked α} {v : Value}

theorem listOf_eq_accepted_iff {results : List α} :
    listOf check v = accepted results ↔ ∃ items, v.items? = some items ∧
      List.Forall₂ (fun item result => check item = accepted result) items results := by
  rw [listOf]
  cases v.items? with
  | some items => simp [all, allFrom_eq_accepted_iff]
  | none => exact iff_of_false refused_ne_accepted (by simp)

theorem entry_eq_accepted_iff {source : Value × Value} {binding : String × α} :
    entry check source = accepted binding ↔
      source.1.text? = some binding.1 ∧ check source.2 = accepted binding.2 := by
  rw [entry, within_eq_accepted_iff, pair_eq_accepted_iff, ofOption_eq_accepted_iff]

theorem entries_eq_accepted_iff {sources : List (Value × Value)} {bindings : List (String × α)} :
    entries check sources = accepted bindings ↔
      List.Forall₂ (fun source binding => entry check source = accepted binding)
        sources bindings := by
  induction sources generalizing bindings with
  | nil =>
      rw [List.forall₂_nil_left_iff, entries, accepted.injEq]
      exact eq_comm
  | cons source rest ih =>
      rw [entries, cons_eq_accepted_iff, List.forall₂_cons_left_iff]
      simp only [ih]

theorem mappingOf_eq_accepted_iff {map : OrderedMap String α} :
    mappingOf check v = accepted map ↔ ∃ sources bindings, v.entries? = some sources ∧
      List.Forall₂ (fun source binding => entry check source = accepted binding)
        sources bindings ∧ OrderedMap.ofList bindings = map := by
  rw [mappingOf]
  cases v.entries? with
  | some sources => simp [map_eq_accepted_iff, entries_eq_accepted_iff]
  | none => exact iff_of_false refused_ne_accepted (by simp)

variable {found : List (Value × Value)} {name : String}

theorem required_eq_accepted_iff {value : α} :
    required found name check = accepted value ↔
      ∃ v, Value.field? found name = some v ∧ check v = accepted value := by
  rw [required, within_eq_accepted_iff]
  cases Value.field? found name with
  | some v => simp
  | none => exact iff_of_false refused_ne_accepted (by simp)

theorem optional_eq_accepted_iff {default value : α} :
    optional found name default check = accepted value ↔
      match Value.field? found name with
      | some v => check v = accepted value
      | none => value = default := by
  rw [optional, within_eq_accepted_iff]
  cases Value.field? found name with
  | some v => rfl
  | none => rw [accepted.injEq, eq_comm]

end Checked

namespace Value

theorem choose?_of_member {members : List ScalarType} {v : Value} {type : ScalarType}
    (h : type ∈ members) (hv : v.scalarType? = some type) : v.choose? members = some v := by
  rw [choose?, hv, if_pos (by simpa using h)]

/-- What a value is converted to has the type. -/
theorem scalarType?_of_convert? {v w : Value} {type : ScalarType}
    (h : v.convert? type = some w) : w.scalarType? = some type := by
  cases type with
  | dateTime | date => cases h
  | _ =>
      obtain ⟨_, -, rfl⟩ := Option.map_eq_some_iff.1 h
      rfl

theorem member_of_choose? {members : List ScalarType} {v w : Value}
    (h : v.choose? members = some w) : ∃ type ∈ members, w.scalarType? = some type := by
  rw [choose?] at h
  split at h
  · next hany =>
    obtain rfl := Option.some.inj h
    cases htype : v.scalarType? with
    | none => simp [htype] at hany
    | some type =>
        rw [htype] at hany
        exact ⟨type, of_decide_eq_true hany, rfl⟩
  · obtain ⟨type, hmember, hconvert⟩ := List.exists_of_findSome?_eq_some h
    exact ⟨type, hmember, scalarType?_of_convert? hconvert⟩

end Value

open Checked

/-- The fields are accepted if each of them is. -/
theorem Fields.check_eq_accepted_iff : ∀ {α : Type} (fields : Fields α)
    {found : List (Value × Value)} {a : α},
    fields.check found = accepted a ↔ fields.Read found a
  | _, .nil, _, _ => iff_of_true rfl trivial
  | _, .required name type rest, found, (a, b) => by
      rw [Fields.check, pair_eq_accepted_iff, required_eq_accepted_iff, rest.check_eq_accepted_iff]
      rfl
  | _, .optional name type default rest, found, (a, b) => by
      rw [Fields.check, pair_eq_accepted_iff, optional_eq_accepted_iff, rest.check_eq_accepted_iff]
      rfl

/-- A list of which each element is written as a binding of the map is checked as the map. -/
theorem mappingOf_of_forall₂ {α : Type} {check : Value → Checked α}
    {sources : List (Value × Value)} {map : OrderedMap String α}
    (h : List.Forall₂ (fun source kept => source.1 = .str kept.1 ∧
      check source.2 = accepted kept.2) sources map.entries) :
    mappingOf check (.dict sources) = accepted map := by
  refine mappingOf_eq_accepted_iff.2 ⟨sources, map.entries, rfl, h.imp fun source kept hkept => ?_,
    map.ofList_entries⟩
  rw [entry_eq_accepted_iff, hkept.1]
  exact ⟨rfl, hkept.2⟩

theorem exists_of_mappingOf {α : Type} {check : Value → Checked α} {v : Value}
    {map : OrderedMap String α} (h : mappingOf check v = accepted map) :
    ∀ entry ∈ map.entries, ∃ item, check item = accepted entry.2 := by
  obtain ⟨sources, bindings, -, hentries, rfl⟩ := mappingOf_eq_accepted_iff.1 h
  intro binding hbinding
  obtain ⟨source, hsource⟩ := exists_of_forall₂ hentries (OrderedMap.mem_of_mem_ofList hbinding)
  exact ⟨source.2, (entry_eq_accepted_iff.1 hsource).2⟩

instance Validation.lawful_lax : @LawfulValidation lax where
  text_str h := ofOption_eq_accepted_iff.2 (Option.filter_eq_some_iff.2 ⟨rfl, decide_eq_true h⟩)
  le_length_of_text h :=
    of_decide_eq_true (Option.filter_eq_some_iff.1 (ofOption_eq_accepted_iff.1 h)).2
  float_float x := rfl
  union_member h hv := ofOption_eq_accepted_iff.2 (Value.choose?_of_member h hv)
  member_of_union h := Value.member_of_choose? (ofOption_eq_accepted_iff.1 h)
  nullable_null type := rfl
  nullable_of_ne_null {α type v} h := by
    cases v with
    | null => exact absurd rfl h
    | _ => rfl
  list_list {α type items as} h := by
    show listOf type.check (.list items) = accepted as
    exact listOf_eq_accepted_iff.2 ⟨items, rfl, h⟩
  of_list h := by
    obtain ⟨items, -, hitems⟩ := listOf_eq_accepted_iff.1 h
    exact fun a ha => exists_of_forall₂ hitems ha
  mapping_dict := mappingOf_of_forall₂
  of_mapping := exists_of_mappingOf
  model_dict := Fields.check_eq_accepted_iff _
  of_model {α fields v a} h := by
    cases v with
    | dict entries => exact ⟨entries, rfl⟩
    | _ => cases h

end PropertyGraph
