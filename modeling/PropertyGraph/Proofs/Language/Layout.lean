import PropertyGraph.Proofs.Language.Draft
import PropertyGraph.Proofs.Language.Token

/-!
The lexemes of texts that are put together. Behind a newline the text is read anew, and behind a
brace that stands outside of quotation marks too. So lexemes can be told part by part, and the
numbers of lines do not matter to the query that is made of them.
-/

namespace PropertyGraph

open Text

namespace Token

/-- The lexemes of a text; none if a quotation mark is not closed on its line. -/
def lexemes? (text : List Char) : Option (List Lexeme) :=
  ((pieces (· == '\n') text).mapM ofLine).map List.flatten

theorem mapM_ofLine {lines : List (List Char)} {number : Nat} {tokens : List Token}
    (h : ofLines number lines = .ok tokens) :
    (lines.mapM ofLine).map List.flatten = some (tokens.map Token.lexeme) := by
  induction lines generalizing number tokens with
  | nil =>
      obtain rfl := Except.ok.inj h
      rfl
  | cons line rest ih =>
      obtain ⟨lexemes, more, hline, hmore, rfl⟩ := exists_of_ofLines_cons h
      obtain ⟨found, hfound, hflat⟩ := Option.map_eq_some_iff.1 (ih hmore)
      simp [hline, hfound, hflat, Function.comp_def]

theorem exists_of_mapM_ofLine {lines : List (List Char)} {found : List (List Lexeme)}
    (h : lines.mapM ofLine = some found) (number : Nat) :
    ∃ tokens, ofLines number lines = .ok tokens ∧ tokens.map Token.lexeme = found.flatten := by
  refine exists_ofLines ?_ number
  induction lines generalizing found with
  | nil =>
      obtain rfl := Option.some.inj h
      exact .nil
  | cons line rest ih =>
      rw [List.mapM_cons] at h
      obtain ⟨lexemes, hline, h⟩ := Option.bind_eq_some_iff.1 h
      obtain ⟨more, hmore, h⟩ := Option.bind_eq_some_iff.1 h
      obtain rfl := Option.some.inj h
      exact .cons hline (ih hmore)

theorem lexemes?_eq_some_iff {text : List Char} {lexemes : List Lexeme} :
    lexemes? text = some lexemes ↔
      ∃ tokens, ofText text = .ok tokens ∧ tokens.map Token.lexeme = lexemes := by
  constructor
  · intro h
    obtain ⟨found, hfound, rfl⟩ := Option.map_eq_some_iff.1 h
    exact exists_of_mapM_ofLine hfound 1
  · rintro ⟨tokens, htokens, rfl⟩
    exact mapM_ofLine htokens

theorem lexemes?_line {line : List Char} (h : '\n' ∉ line) : lexemes? line = ofLine line := by
  rw [lexemes?, pieces_of_notMem h, List.mapM_cons, List.mapM_nil]
  cases ofLine line <;> simp

/-- A newline parts the lexemes before it from those behind it. -/
theorem lexemes?_append_newline (front rest : List Char) :
    lexemes? (front ++ '\n' :: rest) =
      (lexemes? front).bind fun found => (lexemes? rest).map (found ++ ·) := by
  rw [lexemes?, lexemes?, lexemes?, pieces_append_mark (p := (· == '\n')) rfl, List.mapM_append]
  cases (pieces (· == '\n') front).mapM ofLine with
  | none => rfl
  | some first => cases (pieces (· == '\n') rest).mapM ofLine <;> simp

section

variable {c : Char} {brace : Lexeme} (hbrace : Brace c brace)

include hbrace

/-- Of the text behind a brace, the first line is read on with the line before the brace. -/
theorem lexemes?_line_append_brace {line rest : List Char} (hline : '\n' ∉ line)
    (h : (ofLine line).isSome = true ∨ '"' ∉ rest) :
    lexemes? (line ++ c :: rest) =
      (ofLine line).bind fun found => (lexemes? rest).map (found ++ brace :: ·) := by
  have hunmarked : ∀ d ∈ line ++ [c], (d == '\n') = false := by
    intro d hd
    rw [beq_eq_false_iff_ne]
    rintro rfl
    rcases List.mem_append.1 hd with hd | hd
    · exact hline hd
    · exact hbrace.notMem (List.mem_singleton.1 hd ▸ by decide)
  have hfirst := head_pieces_isPrefix (· == '\n') rest
  cases hrest : pieces (· == '\n') rest with
  | nil => exact absurd hrest (pieces_ne_nil _ rest)
  | cons first more =>
      rw [hrest] at hfirst
      have hopen : (ofLine line).isSome = true ∨ '"' ∉ first :=
        h.imp_right fun hquote hmem => hquote (hfirst.subset hmem)
      rw [lexemes?, lexemes?, List.append_cons, pieces_append_of_unmarked hunmarked, hrest,
        List.headD_cons, List.tail_cons, List.append_assoc, List.singleton_append, List.mapM_cons,
        List.mapM_cons, ofLine_append_brace hbrace hopen]
      cases ofLine line with
      | none => rfl
      | some found =>
          cases ofLine first with
          | none => rfl
          | some lexemes => cases more.mapM ofLine <;> simp

/-- A brace parts the lexemes before it from those behind it, and is one itself, unless it stands
between quotation marks. -/
theorem lexemes?_append_brace {front rest : List Char}
    (h : (lexemes? front).isSome = true ∨ '"' ∉ rest) :
    lexemes? (front ++ c :: rest) =
      (lexemes? front).bind fun found => (lexemes? rest).map (found ++ brace :: ·) := by
  induction hlength : front.length using Nat.strongRecOn generalizing front with
  | ind n ih =>
      subst hlength
      by_cases hline : '\n' ∈ front
      · obtain ⟨line, more, rfl⟩ := List.append_of_mem hline
        rw [lexemes?_append_newline] at h
        rw [List.append_assoc, List.cons_append, lexemes?_append_newline, lexemes?_append_newline]
        cases hfirst : lexemes? line with
        | none => rfl
        | some first =>
            rw [hfirst, Option.bind_some, Option.isSome_map] at h
            have hshorter : more.length < (line ++ '\n' :: more).length := by
              rw [List.length_append, List.length_cons]
              omega
            rw [Option.bind_some, ih _ hshorter h rfl]
            cases lexemes? more <;> simp [Function.comp_def]
      · rw [lexemes?_line hline] at h ⊢
        exact lexemes?_line_append_brace hbrace hline h

end

end Token

namespace Query

/-- What a text makes of a query is told by its lexemes. -/
theorem ofText_eq_ok_iff {text : List Char} {q : Query} :
    ofText (String.ofList text) = .ok q ↔ ∃ lexemes assigned, Token.lexemes? text = some lexemes ∧
      Grammar.Sentence lexemes assigned ∧ q = Assignment.applyAll {} assigned := by
  constructor
  · intro h
    obtain ⟨tokens, htokens, hquery⟩ := exists_of_bind h
    rw [String.toList_ofList] at htokens
    obtain ⟨assigned, hsentence, rfl⟩ := ofTokens_iff.1 hquery
    exact ⟨_, assigned, Token.lexemes?_eq_some_iff.2 ⟨tokens, htokens, rfl⟩, hsentence, rfl⟩
  · rintro ⟨lexemes, assigned, hlexemes, hsentence, rfl⟩
    obtain ⟨tokens, htokens, rfl⟩ := Token.lexemes?_eq_some_iff.1 hlexemes
    rw [← String.toList_ofList (l := text)] at htokens
    rw [ofText_of_tokens htokens]
    exact ofTokens_iff.2 ⟨assigned, hsentence, rfl⟩

end Query

end PropertyGraph
