import PropertyGraph.Proofs.Language.Draft
import PropertyGraph.Proofs.Language.Token

/-!
Texts of one operation with one section in its block. The line that says what is done, and on what,
is one lexeme before the brace of the block, and it is read as this operation and nothing else. So
the query of the text has this operation, and what the entries of the section assign.
-/

namespace PropertyGraph

open Text

namespace Grammar

variable {chunk : String} {a : Assignment} {rest : List Lexeme} {assigned : List Assignment}

theorem Operation.unique {b : Assignment} (h : Operation chunk a) (h' : Operation chunk b) :
    a = b := by
  cases h with
  | operation _ _ hline =>
      cases h' with
      | operation _ _ hline' =>
          obtain ⟨rfl, rfl⟩ := Prod.mk.inj (Option.some.inj (hline.symm.trans hline'))
          rfl

theorem Metadata.unique {b : Assignment} (h : Metadata chunk a) (h' : Metadata chunk b) :
    a = b := by
  have hkeywords : "@QUERY".toList ≠ "@INTENT".toList := by decide
  cases h with
  | name hcut hwords =>
      cases h' with
      | name hcut' hwords' =>
          obtain ⟨-, rfl⟩ := Prod.mk.inj (hcut.symm.trans hcut')
          rw [(List.cons.inj (hwords.symm.trans hwords')).1]
      | intent hcut' => exact absurd (Prod.mk.inj (hcut.symm.trans hcut')).1 hkeywords
  | intent hcut =>
      cases h' with
      | name hcut' => exact absurd (Prod.mk.inj (hcut'.symm.trans hcut)).1 hkeywords
      | intent hcut' =>
          obtain ⟨-, rfl⟩ := Prod.mk.inj (hcut.symm.trans hcut')
          rfl

/-- Nothing but metadata begins with an at sign. -/
theorem sentence_metadata_iff (hat : chunk.toList.head? = some '@') (h : Metadata chunk a) :
    Sentence (.text chunk :: rest) assigned ↔
      ∃ more, assigned = a :: more ∧ Sentence rest more := by
  constructor
  · intro hsentence
    obtain ⟨other, htext, hrest⟩ := hsentence.cons_inv
    obtain rfl := Lexeme.text.inj htext
    rcases hrest with ⟨-, b, more, rfl, hmetadata, hmore⟩ | ⟨b, more, -, hoperation, -⟩ | hitems
    · exact ⟨more, by rw [h.unique hmetadata], hmore⟩
    · cases hoperation with
      | operation hne => exact absurd hat hne
    · exact absurd hat (Draft.begins_of_items hitems).1
  · rintro ⟨more, rfl, hmore⟩
    exact .metadata hat h hmore

/-- An operation begins neither metadata nor an item. -/
theorem sentence_operation_iff (h : Operation chunk a) :
    Sentence (.text chunk :: rest) assigned ↔
      ∃ more, assigned = a :: more ∧ Rest .operation rest more := by
  constructor
  · intro hsentence
    obtain ⟨other, htext, hrest⟩ := hsentence.cons_inv
    obtain rfl := Lexeme.text.inj htext
    rcases hrest with ⟨hat, -⟩ | ⟨b, more, rfl, hoperation, hmore⟩ | hitems
    · cases h with
      | operation hne => exact absurd hat hne
    · exact ⟨more, by rw [h.unique hoperation], hmore⟩
    · cases h with
      | operation _ hword =>
          exact absurd (Draft.isBodyLine_iff.1 (Draft.begins_of_items hitems).2) hword
  · rintro ⟨more, rfl, hmore⟩
    exact .of_operation h hmore

theorem rest_block_iff {items : List Lexeme} :
    Rest .operation (.opening :: (items ++ [.closing])) assigned ↔ Items items assigned := by
  rw [rest_operation_opening]
  constructor
  · rintro ⟨others, hlexemes, hitems⟩
    exact List.append_cancel_right hlexemes ▸ hitems
  · exact fun hitems => ⟨items, rfl, hitems⟩

end Grammar

/-- What an operation may stand before: word characters and the three marks of identities. -/
structure IsTarget (target : List Char) : Prop where
  ne_nil : target ≠ []
  chars : ∀ c ∈ target, (isWordChar c || c == '.' || c == ':' || c == '-') = true

instance (target : List Char) : Decidable (IsTarget target) :=
  decidable_of_iff (target ≠ [] ∧
      (target.all fun c => isWordChar c || c == '.' || c == ':' || c == '-') = true)
    ⟨fun h => ⟨h.1, List.all_eq_true.1 h.2⟩, fun h => ⟨h.ne_nil, List.all_eq_true.2 h.chars⟩⟩

namespace IsTarget

variable {target : List Char} (h : IsTarget target)

include h

theorem isBlank_eq_false {c : Char} (hc : c ∈ target) : isBlank c = false := by
  have hchar := h.chars c hc
  simp only [Bool.or_eq_true, beq_iff_eq] at hchar
  rcases hchar with ((hchar | rfl) | rfl) | rfl
  · exact isBlank_of_isWordChar hchar
  all_goals decide

theorem notMem {mark : Char}
    (hmark : (isWordChar mark || mark == '.' || mark == ':' || mark == '-') = false) :
    mark ∉ target :=
  fun hmem => Bool.false_ne_true (hmark.symm.trans (h.chars mark hmem))

theorem isPlain {c : Char} (hc : c ∈ target) : Token.IsPlain c := by
  refine ⟨?_, ?_, ?_⟩
  all_goals
    rintro rfl
    exact h.notMem (by decide) hc

end IsTarget

/-- A word that operation lines begin with: word characters, of which the first is a letter or an
underscore. No item of a body begins with it. -/
structure IsOperationName (name : List Char) : Prop where
  head : name.head?.any (fun c => c.isAlpha || c == '_') = true
  chars : ∀ c ∈ name, isWordChar c = true
  notItem : String.ofList name ∉ ["WHERE", "COMPUTE", "FILTER", "SORT", "LIMIT"]

instance (name : List Char) : Decidable (IsOperationName name) :=
  decidable_of_iff (name.head?.any (fun c => c.isAlpha || c == '_') = true ∧
      name.all isWordChar = true ∧
      String.ofList name ∉ ["WHERE", "COMPUTE", "FILTER", "SORT", "LIMIT"])
    ⟨fun h => ⟨h.1, List.all_eq_true.1 h.2.1, h.2.2⟩,
      fun h => ⟨h.head, List.all_eq_true.2 h.chars, h.notItem⟩⟩

theorem IsOperationName.ne_nil {name : List Char} (h : IsOperationName name) : name ≠ [] := by
  rintro rfl
  exact absurd h.head (by decide)

/-- The line that says what is done, and on what. -/
def operationLine (name target : List Char) : List Char := name ++ ' ' :: target

section

variable {name target : List Char}

theorem head?_operationLine (hname : IsOperationName name) :
    (operationLine name target).head? = name.head? :=
  List.head?_append_of_ne_nil name hname.ne_nil

theorem head?_operationLine_ne (hname : IsOperationName name) :
    (operationLine name target).head? ≠ some '@' := by
  intro hat
  have hhead := hname.head
  rw [head?_operationLine hname] at hat
  rw [hat] at hhead
  exact absurd hhead (by decide)

variable (hname : IsOperationName name) (htarget : IsTarget target)

include hname htarget

theorem strip_operationLine : strip (operationLine name target) = operationLine name target := by
  refine strip_eq_self (fun c hc => ?_) fun c hc => ?_
  · rw [head?_operationLine hname] at hc
    exact isBlank_of_isWordChar (hname.chars c (List.mem_of_mem_head? hc))
  · rw [operationLine, List.append_cons, List.getLast?_append_of_ne_nil _ htarget.ne_nil] at hc
    exact htarget.isBlank_eq_false (List.mem_of_mem_getLast? hc)

/-- An operation line before an opening brace is a lexeme. -/
theorem ofLine_operationLine (rest : List Char) :
    Token.ofLine (operationLine name target ++ ' ' :: '\x7b' :: rest) =
      (Token.ofLine rest).map fun more =>
        .text (String.ofList (operationLine name target)) :: .opening :: more := by
  have hplain : ∀ c ∈ operationLine name target ++ [' '], Token.IsPlain c := by
    rw [operationLine, List.forall_mem_append, List.forall_mem_append, List.forall_mem_cons]
    exact ⟨⟨fun c hc => Token.isPlain_of_isWordChar (hname.chars c hc), by decide,
      fun c => htarget.isPlain⟩, List.forall_mem_singleton.2 (by decide)⟩
  have hne : operationLine name target ≠ [] :=
    List.append_ne_nil_of_right_ne_nil _ (List.cons_ne_nil _ _)
  have hchunk : Token.ofChunk (operationLine name target ++ [' ']) =
      [.text (String.ofList (operationLine name target))] := by
    rw [Token.ofChunk, strip_append_blank isBlank_space, ← Token.ofChunk,
      Token.ofChunk_of_strip hne (strip_operationLine hname htarget)]
  rw [List.append_cons, Token.ofLine_append_opening hplain, hchunk]
  rfl

theorem newline_notMem_operationLine : '\n' ∉ operationLine name target := by
  rw [operationLine, List.mem_append, List.mem_cons, not_or, not_or]
  exact ⟨fun hmem => absurd (hname.chars _ hmem) (by decide), by decide,
    htarget.notMem (by decide)⟩

theorem firstWord_operationLine :
    Draft.firstWord (String.ofList (operationLine name target)) = String.ofList name := by
  have hword : ∀ c ∈ name, isBlank c = false := fun c hc =>
    isBlank_of_isWordChar (hname.chars c hc)
  have hwords : words (operationLine name target) = [name, target] := by
    rw [operationLine, words_append_blank isBlank_space, words_of_unblank hname.ne_nil hword,
      words_of_unblank htarget.ne_nil fun _ hc => htarget.isBlank_eq_false hc]
    rfl
  rw [Draft.firstWord, String.toList_ofList, hwords]
  rfl

theorem operationLine?_operationLine :
    Draft.operationLine? (String.ofList (operationLine name target)) =
      some (String.ofList name, String.ofList target) := by
  have hspan : (operationLine name target).span isWordChar = (name, ' ' :: target) :=
    span_append hname.chars fun c hc => by
      rw [← Option.some.inj hc]
      decide
  have hdrop : (' ' :: target).dropWhile isBlank = target := by
    rw [List.dropWhile_cons_of_pos isBlank_space]
    exact dropWhile_eq_self fun c hc => htarget.isBlank_eq_false (List.mem_of_mem_head? hc)
  have hall : target.all (fun c => isWordChar c || c == '.' || c == ':' || c == '-') = true :=
    List.all_eq_true.2 htarget.chars
  rw [Draft.operationLine?]
  simp only [String.toList_ofList, head?_operationLine hname, hname.head, hspan, hdrop, hall]
  simp

theorem operation_operationLine_iff {a : Assignment} :
    Grammar.Operation (String.ofList (operationLine name target)) a ↔
      a = .operation (.named (String.ofList name)) (String.ofList target) := by
  constructor
  · intro hoperation
    cases hoperation with
    | operation _ _ hline =>
        obtain ⟨rfl, rfl⟩ := Prod.mk.inj (Option.some.inj
          ((operationLine?_operationLine hname htarget).symm.trans hline))
        rfl
  · rintro rfl
    refine .operation ?_ ?_ (operationLine?_operationLine hname htarget)
    · rw [String.toList_ofList]
      exact head?_operationLine_ne hname
    · rw [firstWord_operationLine hname htarget]
      exact hname.notItem

theorem sentence_operationLine_iff {rest : List Lexeme} {assigned : List Assignment} :
    Grammar.Sentence (.text (String.ofList (operationLine name target)) :: rest) assigned ↔
      ∃ more, assigned = .operation (.named (String.ofList name)) (String.ofList target) :: more ∧
        Grammar.Rest .operation rest more :=
  Grammar.sentence_operation_iff ((operation_operationLine_iff hname htarget).2 rfl)

end

theorem Section.keyword_injective : Function.Injective Section.keyword := by
  intro part other h
  have hpart := Section.ofKeyword?_keyword part
  rw [h, Section.ofKeyword?_keyword] at hpart
  exact (Option.some.inj hpart).symm

namespace Grammar

/-- A block of one section assigns what the entries of the section do. -/
theorem rest_section_iff {part : Section} {chunks : List String} {assigned : List Assignment} :
    Rest .operation (.opening :: .text part.keyword :: .opening ::
      (chunks.map .text ++ [.closing, .closing])) assigned ↔
      List.Forall₂ (Entry part) chunks assigned := by
  rw [rest_operation_opening, bodyRest_text]
  constructor
  · rintro (⟨a, more, -, hdirective, -⟩ | ⟨other, hother, after, hafter, hentries⟩)
    · have hnone := (Draft.ofKeyword?_of_directive hdirective).1
      rw [Section.ofKeyword?_keyword] at hnone
      cases hnone
    · obtain rfl := Section.keyword_injective hother
      obtain rfl := (List.cons.inj hafter).2
      rw [entriesRest_texts, entriesRest_closing, List.nil_append] at hentries
      obtain ⟨bound, more, rfl, hbound, hmore⟩ := hentries
      obtain ⟨-, -, rfl⟩ := bodyRest_closing.1 hmore
      rwa [List.append_nil]
  · intro hentries
    refine .inr ⟨part, rfl, _, rfl, ?_⟩
    rw [entriesRest_texts, entriesRest_closing]
    exact ⟨assigned, [], (List.append_nil _).symm, hentries, bodyRest_closing.2 ⟨rfl, rfl, rfl⟩⟩

end Grammar

/-- The lexemes of an operation with one section in its block. -/
def sectionLexemes (name target : List Char) (part : Section) (chunks : List String) :
    List Lexeme :=
  .text (String.ofList (operationLine name target)) :: .opening :: .text part.keyword ::
    .opening :: (chunks.map .text ++ [.closing, .closing])

/-- An operation with one section assigns the operation, then what the entries do. -/
theorem sentence_section_iff {name target : List Char} (hname : IsOperationName name)
    (htarget : IsTarget target) {part : Section} {chunks : List String}
    {assigned : List Assignment} :
    Grammar.Sentence (sectionLexemes name target part chunks) assigned ↔
      ∃ bound, List.Forall₂ (Grammar.Entry part) chunks bound ∧
        assigned = .operation (.named (String.ofList name)) (String.ofList target) :: bound := by
  rw [sectionLexemes, sentence_operationLine_iff hname htarget]
  simp only [Grammar.rest_section_iff, and_comm]

end PropertyGraph
