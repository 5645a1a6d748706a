import PropertyGraph.Proofs.Language.Grammar

/-!
What may still come at each stage of a draft, and what of it when its first lexeme is taken: a
block that is open must be closed, and a section that has begun ends before the next item.
-/

namespace PropertyGraph

namespace Grammar

variable {lexemes rest : List Lexeme} {assignments : List Assignment} {chunk : String}

theorem Items.eq_nil (h : Items [] assignments) : assignments = [] := by
  generalize hnone : [] = lexemes at h
  cases h with
  | nil => rfl
  | cons hitem hrest => cases hitem <;> cases hnone

/-- Items begin with a text: a directive, or the keyword of a section. -/
theorem Items.cons_inv {x : Lexeme} (h : Items (x :: rest) assignments) :
    ∃ chunk, x = .text chunk ∧
      ((∃ a more, assignments = a :: more ∧ Directive chunk a ∧ Items rest more) ∨
        ∃ part chunks first after more, chunk = Section.keyword part ∧
          rest = .opening :: (chunks.map .text ++ .closing :: after) ∧
          assignments = first ++ more ∧ List.Forall₂ (Entry part) chunks first ∧
          Items after more) := by
  -- The constructors build the lexemes by appending, so their list has to be a variable.
  generalize hlexemes : x :: rest = lexemes at h
  cases h with
  | nil => cases hlexemes
  | cons hitem hitems =>
      cases hitem with
      | directive hdirective =>
          obtain ⟨rfl, rfl⟩ := List.cons.inj hlexemes
          exact ⟨_, rfl, .inl ⟨_, _, rfl, hdirective, hitems⟩⟩
      | entries hentries =>
          obtain ⟨rfl, rfl⟩ := List.cons.inj hlexemes
          exact ⟨_, rfl, .inr ⟨_, _, _, _, _, rfl, by simp, rfl, hentries, hitems⟩⟩

/-- What may come after a token of the body: items, and the end of the block if one is open. -/
def BodyRest (inBlock : Bool) (lexemes : List Lexeme) (assignments : List Assignment) : Prop :=
  ∃ items, lexemes = items ++ (if inBlock then [.closing] else []) ∧ Items items assignments

/-- What may come in a section of which entries were found: more of them, the end of the section,
and the rest of the body. -/
def EntriesRest (part : Section) (found : List String) (inBlock : Bool) (lexemes : List Lexeme)
    (assignments : List Assignment) : Prop :=
  ∃ chunks after first more, lexemes = chunks.map .text ++ .closing :: after ∧
    assignments = first ++ more ∧ List.Forall₂ (Entry part) (found ++ chunks) first ∧
    BodyRest inBlock after more

/-- What may come at a stage. -/
def Rest : Stage → List Lexeme → List Assignment → Prop
  | .header, lexemes, assignments => Sentence lexemes assignments
  | .operation, lexemes, assignments => BodyRest false lexemes assignments ∨
    ∃ after, lexemes = .opening :: after ∧ BodyRest true after assignments
  | .body inBlock, lexemes, assignments => BodyRest inBlock lexemes assignments
  | .heading part _ inBlock, lexemes, assignments =>
    ∃ after, lexemes = .opening :: after ∧ EntriesRest part [] inBlock after assignments
  | .entries part _ found inBlock, lexemes, assignments =>
    EntriesRest part (found.map Prod.fst) inBlock lexemes assignments
  | .done, lexemes, assignments => lexemes = [] ∧ assignments = []

section

variable {inBlock : Bool}

@[simp] theorem bodyRest_false :
    BodyRest false lexemes assignments ↔ Items lexemes assignments := by
  simp [BodyRest]

theorem bodyRest_nil : BodyRest inBlock [] assignments ↔ inBlock = false ∧ assignments = [] := by
  cases inBlock with
  | false =>
      rw [bodyRest_false]
      exact ⟨fun h => ⟨rfl, h.eq_nil⟩, fun h => h.2 ▸ .nil⟩
  | true => simp [BodyRest]

theorem bodyRest_closing :
    BodyRest inBlock (.closing :: rest) assignments ↔
      inBlock = true ∧ rest = [] ∧ assignments = [] := by
  constructor
  · rintro ⟨items, hlexemes, hitems⟩
    cases items with
    | nil =>
        -- Nothing stands before the end of a block here; without a block nothing is left at all.
        cases inBlock with
        | false => cases hlexemes
        | true => exact ⟨rfl, (List.cons.inj hlexemes).2, hitems.eq_nil⟩
    | cons x items =>
        obtain ⟨rfl, -⟩ := List.cons.inj hlexemes
        obtain ⟨chunk, htext, -⟩ := hitems.cons_inv
        cases htext
  · rintro ⟨rfl, rfl, rfl⟩
    exact ⟨[], rfl, .nil⟩

theorem not_bodyRest_opening : ¬ BodyRest inBlock (.opening :: rest) assignments := by
  rintro ⟨items, hlexemes, hitems⟩
  cases items with
  | nil => cases inBlock <;> cases hlexemes
  | cons x items =>
      obtain ⟨rfl, -⟩ := List.cons.inj hlexemes
      obtain ⟨chunk, htext, -⟩ := hitems.cons_inv
      cases htext

theorem bodyRest_text :
    BodyRest inBlock (.text chunk :: rest) assignments ↔
      (∃ a more, assignments = a :: more ∧ Directive chunk a ∧ BodyRest inBlock rest more) ∨
      ∃ part, chunk = Section.keyword part ∧
        ∃ after, rest = .opening :: after ∧ EntriesRest part [] inBlock after assignments := by
  constructor
  · rintro ⟨items, hlexemes, hitems⟩
    cases items with
    | nil => cases inBlock <;> cases hlexemes
    | cons x items =>
        obtain ⟨rfl, rfl⟩ := List.cons.inj hlexemes
        obtain ⟨chunk, htext, hitem⟩ := hitems.cons_inv
        obtain rfl := Lexeme.text.inj htext
        rcases hitem with ⟨a, more, rfl, hdirective, hmore⟩ |
          ⟨part, chunks, first, after, more, rfl, rfl, rfl, hentries, hmore⟩
        · exact .inl ⟨a, more, rfl, hdirective, _, rfl, hmore⟩
        · exact .inr ⟨part, rfl, _, rfl, chunks, _, first, more, by simp, rfl, hentries, _, rfl,
            hmore⟩
  · rintro (⟨a, more, rfl, hdirective, items, rfl, hitems⟩ |
      ⟨part, rfl, _, rfl, chunks, _, first, more, rfl, rfl, hentries, items, rfl, hitems⟩)
    · exact ⟨.text chunk :: items, rfl, .cons (.directive hdirective) hitems⟩
    · exact ⟨.text part.keyword :: .opening :: (chunks.map .text ++ [.closing]) ++ items, by simp,
        .cons (.entries hentries) hitems⟩

variable {part : Section} {found : List String}

theorem not_entriesRest_nil : ¬ EntriesRest part found inBlock [] assignments := by
  rintro ⟨chunks, after, first, more, hlexemes, -⟩
  cases chunks <;> cases hlexemes

theorem not_entriesRest_opening :
    ¬ EntriesRest part found inBlock (.opening :: rest) assignments := by
  rintro ⟨chunks, after, first, more, hlexemes, -⟩
  cases chunks <;> cases hlexemes

theorem entriesRest_text :
    EntriesRest part found inBlock (.text chunk :: rest) assignments ↔
      EntriesRest part (found ++ [chunk]) inBlock rest assignments := by
  constructor
  · rintro ⟨chunks, after, first, more, hlexemes, rfl, hentries, hmore⟩
    cases chunks with
    | nil => cases hlexemes
    | cons other chunks =>
        obtain ⟨htext, rfl⟩ := List.cons.inj hlexemes
        obtain rfl := Lexeme.text.inj htext
        exact ⟨chunks, after, first, more, rfl, rfl, by simpa using hentries, hmore⟩
  · rintro ⟨chunks, after, first, more, rfl, rfl, hentries, hmore⟩
    exact ⟨chunk :: chunks, after, first, more, rfl, rfl, by simpa using hentries, hmore⟩

theorem entriesRest_texts {chunks : List String} :
    EntriesRest part found inBlock (chunks.map .text ++ rest) assignments ↔
      EntriesRest part (found ++ chunks) inBlock rest assignments := by
  induction chunks generalizing found with
  | nil => rw [List.map_nil, List.nil_append, List.append_nil]
  | cons chunk chunks ih =>
      rw [List.map_cons, List.cons_append, entriesRest_text, ih, List.append_assoc]
      rfl

theorem entriesRest_closing :
    EntriesRest part found inBlock (.closing :: rest) assignments ↔
      ∃ first more, assignments = first ++ more ∧ List.Forall₂ (Entry part) found first ∧
        BodyRest inBlock rest more := by
  constructor
  · rintro ⟨chunks, after, first, more, hlexemes, rfl, hentries, hmore⟩
    cases chunks with
    | nil =>
        obtain ⟨-, rfl⟩ := List.cons.inj hlexemes
        exact ⟨first, more, rfl, by simpa using hentries, hmore⟩
    | cons other chunks => cases hlexemes
  · rintro ⟨first, more, rfl, hentries, hmore⟩
    exact ⟨[], rest, first, more, rfl, rfl, by simpa using hentries, hmore⟩

end

theorem rest_operation_opening :
    Rest .operation (.opening :: rest) assignments ↔ BodyRest true rest assignments := by
  rw [Rest, or_iff_right not_bodyRest_opening]
  simp

/-- Without a block the items of an operation follow it. -/
theorem rest_operation_of_ne (h : ∀ after, lexemes ≠ .opening :: after) :
    Rest .operation lexemes assignments ↔ BodyRest false lexemes assignments :=
  or_iff_left fun ⟨after, hafter, _⟩ => h after hafter

theorem rest_heading_opening {part : Section} {line : Nat} {inBlock : Bool} :
    Rest (.heading part line inBlock) (.opening :: rest) assignments ↔
      EntriesRest part [] inBlock rest assignments := by
  simp [Rest]

theorem not_rest_heading {part : Section} {line : Nat} {inBlock : Bool}
    (h : ∀ after, lexemes ≠ .opening :: after) :
    ¬ Rest (.heading part line inBlock) lexemes assignments :=
  fun ⟨after, hafter, _⟩ => h after hafter

theorem rest_operation_iff : Rest .operation rest assignments ↔
    Items rest assignments ∨ ∃ items, rest = .opening :: (items ++ [.closing]) ∧
      Items items assignments := by
  rw [Rest, bodyRest_false]
  refine or_congr_right ⟨?_, ?_⟩
  · rintro ⟨_, rfl, items, rfl, hitems⟩
    exact ⟨items, rfl, hitems⟩
  · rintro ⟨items, rfl, hitems⟩
    exact ⟨_, rfl, items, rfl, hitems⟩

theorem Sentence.cons_inv {x : Lexeme} (h : Sentence (x :: rest) assignments) :
    ∃ chunk, x = .text chunk ∧
      ((chunk.toList.head? = some '@' ∧ ∃ a more, assignments = a :: more ∧ Metadata chunk a ∧
          Sentence rest more) ∨
        (∃ a more, assignments = a :: more ∧ Operation chunk a ∧ Rest .operation rest more) ∨
        Items (.text chunk :: rest) assignments) := by
  cases h with
  | metadata hat hmetadata hsentence =>
      exact ⟨_, rfl, .inl ⟨hat, _, _, rfl, hmetadata, hsentence⟩⟩
  | body hbody =>
      cases hbody with
      | operation hoperation hitems =>
          exact ⟨_, rfl, .inr (.inl ⟨_, _, rfl, hoperation, rest_operation_iff.2 (.inl hitems)⟩)⟩
      | block hoperation hitems =>
          exact ⟨_, rfl, .inr (.inl ⟨_, _, rfl, hoperation,
            rest_operation_iff.2 (.inr ⟨_, rfl, hitems⟩)⟩)⟩
      | items hitems =>
          obtain ⟨chunk, rfl, -⟩ := hitems.cons_inv
          exact ⟨chunk, rfl, .inr (.inr hitems)⟩

theorem Sentence.of_operation {a : Assignment} (hoperation : Operation chunk a)
    (hrest : Rest .operation rest assignments) :
    Sentence (.text chunk :: rest) (a :: assignments) := by
  rcases rest_operation_iff.1 hrest with hitems | ⟨items, rfl, hitems⟩
  · exact .body (.operation hoperation hitems)
  · exact .body (.block hoperation hitems)

theorem Sentence.eq_nil (h : Sentence [] assignments) : assignments = [] := by
  cases h with
  | body hbody =>
      cases hbody with
      | items hitems => exact hitems.eq_nil

end Grammar

end PropertyGraph
