import Mathlib.Data.List.Forall2
import PropertyGraph.Proofs.Language.Block
import PropertyGraph.Proofs.Language.Entry

/-!
Texts that fetch by conditions on quoted texts, one condition a line. Each field is bound to its text
as it stands between the quotation marks, whatever marks, digits and blanks it holds.
-/

namespace PropertyGraph

open Text

namespace Assignment

theorem applyAll_conditions (q : Query) (entries : List (String × Value)) :
    applyAll q (entries.map fun entry => .condition entry.1 entry.2) =
      { q with conditions :=
          entries.foldl (fun map entry => map.insert entry.1 entry.2) q.conditions } := by
  induction entries generalizing q with
  | nil => rfl
  | cons entry rest ih =>
      rw [List.map_cons, applyAll_cons, ih, List.foldl_cons]
      rfl

end Assignment

/-- A field with a text that can be quoted on one line. -/
structure IsQuotable (binding : String × String) : Prop where
  field : isFieldName binding.1.toList = true
  mark : '"' ∉ binding.2.toList
  line : '\n' ∉ binding.2.toList

instance (binding : String × String) : Decidable (IsQuotable binding) :=
  decidable_of_iff (isFieldName binding.1.toList = true ∧ '"' ∉ binding.2.toList ∧
      '\n' ∉ binding.2.toList)
    ⟨fun h => ⟨h.1, h.2.1, h.2.2⟩, fun h => ⟨h.field, h.mark, h.line⟩⟩

namespace ConditionText

/-- The line that opens the block and its section. -/
def heading (target : String) : List Char :=
  operationLine "FETCH".toList target.toList ++ " \x7b WHERE \x7b".toList

def entry (binding : String × String) : List Char :=
  Entry.quoted binding.1.toList binding.2.toList

def lines (target : String) (bindings : List (String × String)) : List (List Char) :=
  heading target :: (bindings.map entry ++ ["\x7d \x7d".toList])

/-- The text that asks for the nodes with these properties. -/
def render (target : String) (bindings : List (String × String)) : String :=
  String.ofList (join ['\n'] (lines target bindings))

example : render "user" [("name", "a: \x7b1, 2\x7d"), ("city", " >= 'x'")] =
    "FETCH user \x7b WHERE \x7b\nname: \"a: \x7b1, 2\x7d\"\ncity: \" >= 'x'\"\n\x7d \x7d" := by
  decide +kernel

def chunks (bindings : List (String × String)) : List String :=
  bindings.map fun binding => String.ofList (entry binding)

variable {target : String} {bindings : List (String × String)}

theorem isOperationName : IsOperationName "FETCH".toList := by decide

theorem newline_notMem_lines (htarget : IsTarget target.toList)
    (h : ∀ binding ∈ bindings, IsQuotable binding) :
    ∀ line ∈ lines target bindings, '\n' ∉ line := by
  have hheading : '\n' ∉ heading target := by
    rw [heading, List.mem_append, not_or]
    exact ⟨newline_notMem_operationLine isOperationName htarget, by decide⟩
  rw [lines, List.forall_mem_cons, List.forall_mem_append, List.forall_mem_map]
  refine ⟨hheading, fun binding hbinding => ?_, List.forall_mem_singleton.2 (by decide)⟩
  exact Entry.newline_notMem_quoted (h binding hbinding).field (h binding hbinding).line

theorem ofLine_heading (htarget : IsTarget target.toList) :
    Token.ofLine (heading target) =
      some [.text (String.ofList (operationLine "FETCH".toList target.toList)), .opening,
        .text "WHERE", .opening] := by
  have hsection : Token.ofLine " WHERE \x7b".toList = some [.text "WHERE", .opening] := by decide
  exact (ofLine_operationLine isOperationName htarget _).trans (congrArg _ hsection)

theorem tokens_lines (htarget : IsTarget target.toList)
    (h : ∀ binding ∈ bindings, IsQuotable binding) :
    ∃ tokens, Token.ofLines 1 (lines target bindings) = .ok tokens ∧
      tokens.map Token.lexeme =
        sectionLexemes "FETCH".toList target.toList .conditions (chunks bindings) := by
  have hentries : List.Forall₂ (fun line found => Token.ofLine line = some found)
      (bindings.map entry) ((chunks bindings).map fun chunk => [.text chunk]) := by
    rw [chunks, List.map_map, List.forall₂_map_left_iff, List.forall₂_map_right_iff,
      List.forall₂_same]
    exact fun binding hbinding =>
      Entry.ofLine_quoted (h binding hbinding).field (h binding hbinding).mark
  have hclosing : Token.ofLine "\x7d \x7d".toList = some [.closing, .closing] := by decide
  obtain ⟨tokens, htokens, hlexemes⟩ := Token.exists_ofLines
    (.cons (ofLine_heading htarget) (List.rel_append hentries (.cons hclosing .nil))) 1
  have htexts : ((chunks bindings).map fun chunk => [Lexeme.text chunk]).flatten =
      (chunks bindings).map .text := by
    rw [← List.flatMap_def, List.map_eq_flatMap]
  refine ⟨tokens, htokens, hlexemes.trans ?_⟩
  simp [sectionLexemes, Section.keyword, htexts]

/-- The field of each entry is bound to its text. -/
theorem entries_chunks (h : ∀ binding ∈ bindings, IsQuotable binding) :
    List.Forall₂ (Grammar.Entry .conditions) (chunks bindings)
      (bindings.map fun binding => .condition binding.1 (.str binding.2)) := by
  rw [chunks, List.forall₂_map_left_iff, List.forall₂_map_right_iff, List.forall₂_same]
  intro binding hbinding
  rw [entry, Grammar.condition_quoted_iff (h binding hbinding).field, String.ofList_toList,
    String.ofList_toList]

/-- The conditions of the query bind each field to its text, in the order of the lines. Without any
line there are no conditions. -/
theorem ofText_conditions (htarget : IsTarget target.toList)
    (hdistinct : (bindings.map Prod.fst).Nodup) (h : ∀ binding ∈ bindings, IsQuotable binding) :
    ∃ conditions : OrderedMap String Value,
      Query.ofText (render target bindings) = .ok { operation := .fetch, target, conditions } ∧
        conditions.entries = (bindings.map fun binding => (binding.1, .str binding.2)) ∧
        (conditions.isEmpty = true ↔ bindings = []) := by
  have htext : Token.ofText (render target bindings).toList =
      Token.ofLines 1 (lines target bindings) := by
    rw [render, String.toList_ofList]
    exact Token.ofText_join (List.cons_ne_nil _ _) (newline_notMem_lines htarget h)
  obtain ⟨tokens, htokens, hlexemes⟩ := tokens_lines htarget h
  rw [← htext] at htokens
  let bound : List (String × Value) := bindings.map fun binding => (binding.1, .str binding.2)
  have hbound : (OrderedMap.ofList bound).entries = bound :=
    OrderedMap.entries_ofList (by simpa [bound, Function.comp_def] using hdistinct)
  have hassigned : (bindings.map fun binding => Assignment.condition binding.1 (.str binding.2)) =
      bound.map fun entry => .condition entry.1 entry.2 := by
    simp [bound]
  have hnamed : Operation.named (String.ofList "FETCH".toList) = .fetch := by decide +kernel
  refine ⟨.ofList bound, ?_, hbound, ?_⟩
  · rw [Query.ofText_of_tokens htokens, Query.ofTokens_iff, hlexemes]
    refine ⟨_, (sentence_section_iff isOperationName htarget).2 ⟨_, entries_chunks h, rfl⟩, ?_⟩
    rw [Assignment.applyAll_cons, hassigned, Assignment.applyAll_conditions, hnamed,
      String.ofList_toList]
    rfl
  · rw [OrderedMap.isEmpty, hbound]
    simp [bound]

/-- Texts of braces, commas, operators, blanks and nothing at all. -/
theorem ofText_conditions_of_marks :
    let bindings := [("a.b", "\x7b x: \x7d, [1]"), ("c", ""), ("d", " @'>=' "), ("e", "42")]
    IsTarget "user".toList ∧ (bindings.map Prod.fst).Nodup ∧
      (∀ binding ∈ bindings, IsQuotable binding) ∧
      ∃ conditions : OrderedMap String Value,
        Query.ofText (render "user" bindings) =
          .ok { operation := .fetch, target := "user", conditions } ∧
        conditions.entries = (bindings.map fun binding => (binding.1, .str binding.2)) ∧
        (conditions.isEmpty = true ↔ bindings = []) := by
  intro bindings
  have htarget : IsTarget "user".toList := by decide +kernel
  have hdistinct : (bindings.map Prod.fst).Nodup := by decide
  have hquotable : ∀ binding ∈ bindings, IsQuotable binding := by decide +kernel
  exact ⟨htarget, hdistinct, hquotable, ofText_conditions htarget hdistinct hquotable⟩

end ConditionText

end PropertyGraph
