import Mathlib.Data.List.Forall2
import PropertyGraph.Record.Schema

/-!
Validation against schemas. What is assumed of it is said type by type: a value that has the declared
type is kept as it is, and what is accepted is kept as the type declares it. It follows for every
schema, by recursion, that a value which is written after it was validated is validated to itself.
-/

namespace PropertyGraph

open Checked

namespace Value

variable {entries : List (Value × Value)} {name other : String} {v : Value}

theorem field?_cons_self : field? ((.str name, v) :: entries) name = some v := by
  simp [field?]

theorem field?_cons_of_ne (h : other ≠ name) :
    field? ((.str other, v) :: entries) name = field? entries name := by
  simp [field?, h]

end Value

namespace Checked

variable {α β : Type u}

theorem refused_ne_accepted {places : List Place} {value : α} :
    refused places ≠ accepted value :=
  nofun

theorem map_eq_accepted_iff {f : α → β} {x : Checked α} {result : β} :
    f <$> x = accepted result ↔ ∃ value, x = accepted value ∧ f value = result := by
  cases x with
  | accepted value => simp
  | refused places => exact iff_of_false refused_ne_accepted (by simp)

end Checked

mutual

/-- The type declares that a value of a record is kept as another one, which it is the same as. -/
def Schema.Keeps : {α : Type} → Schema α → Value → α → Prop
  | _, .text minLength, v, s => v = .str s ∧ minLength ≤ s.length
  | _, .float, v, x => v = .float x
  | _, .union members, v, w => v = w ∧ ∃ type ∈ members, w.scalarType? = some type
  | _, .nullable type, v, a? => match a? with
    | none => v = .null
    | some a => v ≠ .null ∧ type.Keeps v a
  | _, .list type, v, as => ∃ items, v = .list items ∧ List.Forall₂ type.Keeps items as
  | _, .mapping type, v, map => ∃ entries, v = .dict entries ∧
    List.Forall₂ (fun entry kept => entry.1 = .str kept.1 ∧ type.Keeps entry.2 kept.2)
      entries map.entries
  | _, .model fields, v, a => ∃ entries, v = .dict entries ∧ fields.Keep entries a

/-- The fields are kept as other values, which they are the same as. -/
def Fields.Keep : {α : Type} → Fields α → List (Value × Value) → α → Prop
  | _, .nil, _, _ => True
  | _, .required name type rest, entries, (a, b) =>
    (∃ v, Value.field? entries name = some v ∧ type.Keeps v a) ∧ rest.Keep entries b
  | _, .optional name type default rest, entries, (a, b) =>
    (match Value.field? entries name with
      | some v => type.Keeps v a
      | none => a = default) ∧ rest.Keep entries b

end

mutual

/-- A value is one that the type keeps. -/
def Schema.Valid : {α : Type} → Schema α → α → Prop
  | _, .text minLength, s => minLength ≤ s.length
  | _, .float, _ => True
  | _, .union members, v => ∃ type ∈ members, v.scalarType? = some type
  | _, .nullable type, a? => ∀ a, a? = some a → type.Valid a
  | _, .list type, as => ∀ a ∈ as, type.Valid a
  | _, .mapping type, map => ∀ entry ∈ map.entries, type.Valid entry.2
  | _, .model fields, a => fields.Valid a

def Fields.Valid : {α : Type} → Fields α → α → Prop
  | _, .nil, _ => True
  | _, .required _ type rest, (a, b) => type.Valid a ∧ rest.Valid b
  | _, .optional _ type _ rest, (a, b) => type.Valid a ∧ rest.Valid b

end

mutual

/-- A kept value as a part of a record. -/
def Schema.write : {α : Type} → Schema α → α → Value
  | _, .text _, s => .str s
  | _, .float, x => .float x
  | _, .union _, v => v
  | _, .nullable type, a? => a?.elim .null type.write
  | _, .list type, as => .list (as.map type.write)
  | _, .mapping type, map => .dict (map.entries.map fun entry => (.str entry.1, type.write entry.2))
  | _, .model fields, a => .dict (fields.write a)

def Fields.write : {α : Type} → Fields α → α → List (Value × Value)
  | _, .nil, _ => []
  | _, .required name type rest, (a, b) => (.str name, type.write a) :: rest.write b
  | _, .optional name type _ rest, (a, b) => (.str name, type.write a) :: rest.write b

end

def Fields.names : {α : Type} → Fields α → List String
  | _, .nil => []
  | _, .required name _ rest => name :: rest.names
  | _, .optional name _ _ rest => name :: rest.names

/-- Null is a value of the type. -/
def Schema.HasNull : {α : Type} → Schema α → Prop
  | _, .nullable _ => True
  | _, _ => False

mutual

/-- Defaults are valid, no field is declared twice, and what may be null is not so for two reasons. -/
def Schema.WellFormed : {α : Type} → Schema α → Prop
  | _, .text _ | _, .float | _, .union _ => True
  | _, .nullable type => type.WellFormed ∧ ¬ type.HasNull
  | _, .list type | _, .mapping type => type.WellFormed
  | _, .model fields => fields.WellFormed

def Fields.WellFormed : {α : Type} → Fields α → Prop
  | _, .nil => True
  | _, .required name type rest => type.WellFormed ∧ name ∉ rest.names ∧ rest.WellFormed
  | _, .optional name type default rest =>
    type.WellFormed ∧ type.Valid default ∧ name ∉ rest.names ∧ rest.WellFormed

end

open Validation

/-- The fields of a mapping are validated, each on its own. -/
def Fields.Read [Validation] : {α : Type} → Fields α → List (Value × Value) → α → Prop
  | _, .nil, _, _ => True
  | _, .required name type rest, entries, (a, b) =>
    (∃ v, Value.field? entries name = some v ∧ validate type v = accepted a) ∧ rest.Read entries b
  | _, .optional name type default rest, entries, (a, b) =>
    (match Value.field? entries name with
      | some v => validate type v = accepted a
      | none => a = default) ∧ rest.Read entries b

/-- What validation promises of each type. A text, a float and a scalar of one of the types of a union
are accepted as they are; null where it is allowed, and lists and mappings of what is accepted, are
accepted as such. Whatever is accepted otherwise is kept as a value of the type. A mapping with fields
is accepted if each field is, or is missing and has a default. -/
class LawfulValidation [Validation] : Prop where
  text_str {minLength : Nat} {s : String} (h : minLength ≤ s.length) :
    validate (.text minLength) (.str s) = accepted s
  le_length_of_text {minLength : Nat} {v : Value} {s : String}
    (h : validate (.text minLength) v = accepted s) : minLength ≤ s.length
  float_float (x : Double) : validate .float (.float x) = accepted x
  union_member {members : List ScalarType} {v : Value} {type : ScalarType} (h : type ∈ members)
    (hv : v.scalarType? = some type) : validate (.union members) v = accepted v
  member_of_union {members : List ScalarType} {v w : Value}
    (h : validate (.union members) v = accepted w) : ∃ type ∈ members, w.scalarType? = some type
  nullable_null {α : Type} (type : Schema α) : validate (.nullable type) .null = accepted none
  nullable_of_ne_null {α : Type} {type : Schema α} {v : Value} (h : v ≠ .null) :
    validate (.nullable type) v = some <$> validate type v
  list_list {α : Type} {type : Schema α} {items : List Value} {as : List α}
    (h : List.Forall₂ (fun item a => validate type item = accepted a) items as) :
    validate (.list type) (.list items) = accepted as
  of_list {α : Type} {type : Schema α} {v : Value} {as : List α}
    (h : validate (.list type) v = accepted as) : ∀ a ∈ as, ∃ item, validate type item = accepted a
  mapping_dict {α : Type} {type : Schema α} {entries : List (Value × Value)}
    {map : OrderedMap String α}
    (h : List.Forall₂ (fun entry kept => entry.1 = .str kept.1 ∧
      validate type entry.2 = accepted kept.2) entries map.entries) :
    validate (.mapping type) (.dict entries) = accepted map
  of_mapping {α : Type} {type : Schema α} {v : Value} {map : OrderedMap String α}
    (h : validate (.mapping type) v = accepted map) :
    ∀ entry ∈ map.entries, ∃ item, validate type item = accepted entry.2
  model_dict {α : Type} {fields : Fields α} {entries : List (Value × Value)} {a : α} :
    validate (.model fields) (.dict entries) = accepted a ↔ fields.Read entries a
  of_model {α : Type} {fields : Fields α} {v : Value} {a : α}
    (h : validate (.model fields) v = accepted a) : ∃ entries, v = .dict entries

open LawfulValidation

mutual

/-- A value that the type keeps as it is, is accepted as that. -/
theorem Schema.validate_of_keeps [Validation] [LawfulValidation] : ∀ {α : Type}
    (type : Schema α) {v : Value} {a : α}, type.Keeps v a → validate type v = accepted a
  | _, .text _, _, _, h => by
      obtain ⟨rfl, hlength⟩ := h
      exact text_str hlength
  | _, .float, _, _, h => by
      obtain rfl := h
      exact float_float _
  | _, .union _, _, _, h => by
      obtain ⟨rfl, _, hmember, htype⟩ := h
      exact union_member hmember htype
  | _, .nullable type, _, none, h => by
      obtain rfl := h
      exact nullable_null type
  | _, .nullable type, _, some _, h => by
      obtain ⟨hnull, h⟩ := h
      rw [nullable_of_ne_null hnull, type.validate_of_keeps h, map_accepted]
  | _, .list type, _, _, h => by
      obtain ⟨items, rfl, h⟩ := h
      exact list_list (h.imp fun _ _ hitem => type.validate_of_keeps hitem)
  | _, .mapping type, _, _, h => by
      obtain ⟨entries, rfl, h⟩ := h
      exact mapping_dict (h.imp fun _ _ hentry => ⟨hentry.1, type.validate_of_keeps hentry.2⟩)
  | _, .model fields, _, _, h => by
      obtain ⟨entries, rfl, h⟩ := h
      exact model_dict.2 (fields.read_of_keep h)

theorem Fields.read_of_keep [Validation] [LawfulValidation] : ∀ {α : Type} (fields : Fields α)
    {entries : List (Value × Value)} {a : α}, fields.Keep entries a → fields.Read entries a
  | _, .nil, _, _, _ => trivial
  | _, .required name type rest, entries, (a, b), h => by
      obtain ⟨⟨v, hv, h⟩, hrest⟩ := h
      exact ⟨⟨v, hv, type.validate_of_keeps h⟩, rest.read_of_keep hrest⟩
  | _, .optional name type default rest, entries, (a, b), h => by
      obtain ⟨h, hrest⟩ := h
      refine ⟨?_, rest.read_of_keep hrest⟩
      split at h
      · exact type.validate_of_keeps h
      · exact h

end

mutual

/-- What is accepted is kept as a value of the type. -/
theorem Schema.valid_of_validate [Validation] [LawfulValidation] : ∀ {α : Type}
    (type : Schema α), type.WellFormed →
      ∀ {v : Value} {a : α}, validate type v = accepted a → type.Valid a
  | _, .text _, _, _, _, h => le_length_of_text h
  | _, .float, _, _, _, _ => trivial
  | _, .union _, _, _, _, h => member_of_union h
  | _, .nullable type, hformed, v, a?, h => fun a ha => by
      subst ha
      by_cases hnull : v = .null
      · rw [hnull, nullable_null, accepted.injEq] at h
        cases h
      · rw [nullable_of_ne_null hnull, map_eq_accepted_iff] at h
        obtain ⟨value, h, hvalue⟩ := h
        obtain rfl := Option.some.inj hvalue
        exact type.valid_of_validate hformed.1 h
  | _, .list type, hformed, _, _, h => fun a ha => by
      obtain ⟨item, hitem⟩ := of_list h a ha
      exact type.valid_of_validate hformed hitem
  | _, .mapping type, hformed, _, _, h => fun entry hentry => by
      obtain ⟨item, hitem⟩ := of_mapping h entry hentry
      exact type.valid_of_validate hformed hitem
  | _, .model fields, hformed, _, _, h => by
      obtain ⟨entries, rfl⟩ := of_model h
      exact fields.valid_of_read hformed (model_dict.1 h)

theorem Fields.valid_of_read [Validation] [LawfulValidation] : ∀ {α : Type} (fields : Fields α),
    fields.WellFormed →
      ∀ {entries : List (Value × Value)} {a : α}, fields.Read entries a → fields.Valid a
  | _, .nil, _, _, _, _ => trivial
  | _, .required _ type rest, hformed, _, (_, _), h => by
      obtain ⟨htype, -, hformed⟩ := hformed
      obtain ⟨⟨v, -, h⟩, hrest⟩ := h
      exact ⟨type.valid_of_validate htype h, rest.valid_of_read hformed hrest⟩
  | _, .optional _ type default rest, hformed, _, (_, _), h => by
      obtain ⟨htype, hdefault, -, hformed⟩ := hformed
      obtain ⟨h, hrest⟩ := h
      refine ⟨?_, rest.valid_of_read hformed hrest⟩
      split at h
      · exact type.valid_of_validate htype h
      · exact h ▸ hdefault

end

/-- Only a value of a type that has null is null. -/
theorem Schema.ne_null_of_keeps {α : Type} {type : Schema α} (hnull : ¬ type.HasNull) {v : Value}
    {a : α} (h : type.Keeps v a) : v ≠ .null := by
  cases type with
  | text => exact h.1 ▸ nofun
  | float => exact (show v = .float a from h) ▸ nofun
  | union =>
      rintro rfl
      obtain ⟨rfl, _, -, htype⟩ := h
      cases htype
  | nullable => exact absurd trivial hnull
  | list | mapping | model =>
      obtain ⟨_, rfl, -⟩ := h
      exact nofun

theorem Fields.keep_cons {v : Value} : ∀ {α : Type} (fields : Fields α) {name : String}
    {entries : List (Value × Value)} {a : α}, name ∉ fields.names → fields.Keep entries a →
    fields.Keep ((.str name, v) :: entries) a
  | _, .nil, _, _, _, _, _ => trivial
  | _, .required other type rest, name, entries, (a, b), hname, h => by
      obtain ⟨hne, hname⟩ := List.ne_and_not_mem_of_not_mem_cons hname
      obtain ⟨⟨found, hfound, h⟩, hrest⟩ := h
      exact ⟨⟨found, (Value.field?_cons_of_ne hne).trans hfound, h⟩, rest.keep_cons hname hrest⟩
  | _, .optional other type default rest, name, entries, (a, b), hname, h => by
      obtain ⟨hne, hname⟩ := List.ne_and_not_mem_of_not_mem_cons hname
      obtain ⟨h, hrest⟩ := h
      exact ⟨by rwa [Value.field?_cons_of_ne hne], rest.keep_cons hname hrest⟩

mutual

/-- A kept value is written as one that is kept as itself. -/
theorem Schema.keeps_write : ∀ {α : Type} (type : Schema α), type.WellFormed →
    ∀ {a : α}, type.Valid a → type.Keeps (type.write a) a
  | _, .text _, _, _, h => ⟨rfl, h⟩
  | _, .float, _, _, _ => rfl
  | _, .union _, _, _, h => ⟨rfl, h⟩
  | _, .nullable _, _, none, _ => rfl
  | _, .nullable type, hformed, some a, h => by
      have hkeeps := type.keeps_write hformed.1 (h a rfl)
      exact ⟨type.ne_null_of_keeps hformed.2 hkeeps, hkeeps⟩
  | _, .list type, hformed, as, h => by
      refine ⟨_, rfl, ?_⟩
      rw [List.forall₂_map_left_iff, List.forall₂_same]
      exact fun a ha => type.keeps_write hformed (h a ha)
  | _, .mapping type, hformed, map, h => by
      refine ⟨_, rfl, ?_⟩
      rw [List.forall₂_map_left_iff, List.forall₂_same]
      exact fun entry hentry => ⟨rfl, type.keeps_write hformed (h entry hentry)⟩
  | _, .model fields, hformed, _, h => ⟨_, rfl, fields.keep_write hformed h⟩

theorem Fields.keep_write : ∀ {α : Type} (fields : Fields α), fields.WellFormed →
    ∀ {a : α}, fields.Valid a → fields.Keep (fields.write a) a
  | _, .nil, _, _, _ => trivial
  | _, .required name type rest, hformed, (a, b), h => by
      obtain ⟨htype, hname, hformed⟩ := hformed
      refine ⟨⟨_, Value.field?_cons_self, type.keeps_write htype h.1⟩, ?_⟩
      exact rest.keep_cons hname (rest.keep_write hformed h.2)
  | _, .optional name type default rest, hformed, (a, b), h => by
      obtain ⟨htype, -, hname, hformed⟩ := hformed
      refine ⟨?_, rest.keep_cons hname (rest.keep_write hformed h.2)⟩
      rw [Fields.write, Value.field?_cons_self]
      exact type.keeps_write htype h.1

end

theorem eq_map_of_forall₂ {f : β → α} {xs : List α} {ys : List β}
    (h : List.Forall₂ (fun x y => x = f y) xs ys) : xs = ys.map f := by
  induction h with
  | nil => rfl
  | cons hfirst _ ih => rw [List.map_cons, ← ih, ← hfirst]

/-- The type has no fields, which could come in another order and among others. -/
def Schema.Plain : {α : Type} → Schema α → Prop
  | _, .text _ | _, .float | _, .union _ => True
  | _, .nullable type | _, .list type | _, .mapping type => type.Plain
  | _, .model _ => False

/-- A value of a type without fields is kept only as what is written as that value. -/
theorem Schema.eq_write_of_keeps : ∀ {α : Type} (type : Schema α), type.Plain →
    ∀ {v : Value} {a : α}, type.Keeps v a → v = type.write a
  | _, .text _, _, _, _, h => h.1
  | _, .float, _, _, _, h => h
  | _, .union _, _, _, _, h => h.1
  | _, .nullable _, _, _, none, h => h
  | _, .nullable type, hplain, _, some _, h => type.eq_write_of_keeps hplain h.2
  | _, .list type, hplain, _, as, h => by
      obtain ⟨items, rfl, hitems⟩ := h
      exact congrArg Value.list (eq_map_of_forall₂ (hitems.imp fun _ _ hitem =>
        type.eq_write_of_keeps hplain hitem))
  | _, .mapping type, hplain, _, map, h => by
      obtain ⟨entries, rfl, hentries⟩ := h
      exact congrArg Value.dict (eq_map_of_forall₂ (hentries.imp fun _ _ hentry =>
        Prod.ext hentry.1 (type.eq_write_of_keeps hplain hentry.2)))

/-- What is accepted is accepted again when it is written. -/
theorem Schema.validate_write [Validation] [LawfulValidation] {α : Type} {type : Schema α}
    (hformed : type.WellFormed) {v : Value} {a : α} (h : validate type v = accepted a) :
    validate type (type.write a) = accepted a :=
  type.validate_of_keeps (type.keeps_write hformed (type.valid_of_validate hformed h))

end PropertyGraph
