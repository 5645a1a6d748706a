import Mathlib.Data.Bool.AllAny
import PropertyGraph.Proofs.Language.Layout
import PropertyGraph.Proofs.Language.Reader

/-!
Blanks around braces. A chunk is stripped of the blanks at its ends, and a line of blanks has no
lexeme, so blanks next to a brace leave the lexemes of a text as they are. They can only move them
to other lines, and so the query is the same, or the fault but for its line.
-/

namespace PropertyGraph

open Text

theorem Token.ofChunk_congr {chunk other : List Char} (h : strip chunk = strip other) :
    ofChunk chunk = ofChunk other := by
  rw [ofChunk, ofChunk, h]

/-- A blank is no mark of the language. -/
theorem isPlain_of_isBlank {c : Char} (h : isBlank c = true) : Token.IsPlain c := by
  refine ⟨?_, ?_, ?_⟩
  all_goals
    rintro rfl
    exact absurd h (by decide)

namespace Reader

/-- A blank at the end of a text is not noticed. -/
theorem finish_step_blank {c : Char} (hc : isBlank c = true) (r : Reader) :
    (r.step c >>= finish) = r.finish := by
  have hplain := isPlain_of_isBlank hc
  by_cases hnewline : c = '\n'
  · subst hnewline
    unfold step finish
    cases hopen : r.insideQuotes with
    | true => rfl
    | false =>
        refine congrArg Except.ok ?_
        simp [flush, atLine, Token.ofChunk, strip, stripEnd]
  · have hchunk : Token.ofChunk (r.push c).chunk.reverse = Token.ofChunk r.chunk.reverse := by
      refine Token.ofChunk_congr ?_
      rw [push, List.reverse_cons, strip_append_blank hc]
    have hstep : r.step c = .ok (r.push c) := by
      unfold step
      rw [if_neg hnewline, if_neg hplain.1, if_neg hplain.2.1, if_neg hplain.2.2]
      split <;> rfl
    rw [hstep]
    show (r.push c).finish = _
    unfold finish flush
    rw [hchunk]
    rfl

theorem tokensOf_append_blank {c : Char} (hc : isBlank c = true) (text : List Char) :
    tokensOf (text ++ [c]) = tokensOf text := by
  rw [tokensOf, tokensOf, List.foldlM_append, bind_assoc]
  refine congrArg _ (funext fun r => ?_)
  rw [List.foldlM_cons, bind_assoc]
  exact finish_step_blank hc r

end Reader

namespace Token

theorem ofText_append_blank {c : Char} (hc : isBlank c = true) (text : List Char) :
    ofText (text ++ [c]) = ofText text := by
  rw [← Reader.tokensOf_eq, ← Reader.tokensOf_eq, Reader.tokensOf_append_blank hc]

theorem lexemes?_congr {text other : List Char} (h : ofText text = ofText other) :
    lexemes? text = lexemes? other := by
  refine Option.ext fun lexemes => ?_
  rw [lexemes?_eq_some_iff, lexemes?_eq_some_iff, h]

/-- Blanks behind a text have no lexeme, and end none before. -/
theorem lexemes?_append_blanks {gap : List Char} (h : ∀ c ∈ gap, isBlank c = true)
    (text : List Char) : lexemes? (text ++ gap) = lexemes? text := by
  induction gap generalizing text with
  | nil => rw [List.append_nil]
  | cons c gap ih =>
      obtain ⟨hc, hgap⟩ := List.forall_mem_cons.1 h
      rw [List.append_cons, ih hgap, lexemes?_congr (ofText_append_blank hc text)]

/-- A blank that the chunk begins with is not noticed. -/
theorem scan_append_blank {c : Char} (hc : isBlank c = true) (insideQuotes : Bool)
    (chunk line : List Char) :
    scan insideQuotes (chunk ++ [c]) line = scan insideQuotes chunk line := by
  have hchunk (chunk : List Char) : ofChunk (chunk ++ [c]).reverse = ofChunk chunk.reverse := by
    refine ofChunk_congr ?_
    rw [List.reverse_append, List.reverse_singleton, List.singleton_append, strip_cons_blank hc]
  induction line generalizing insideQuotes chunk with
  | nil => rw [scan, scan, hchunk]
  | cons d line ih =>
      simp only [scan, hchunk, ← List.cons_append, ih]

theorem lexemes?_cons_blank {c : Char} (hc : isBlank c = true) (text : List Char) :
    lexemes? (c :: text) = lexemes? text := by
  by_cases hnewline : c = '\n'
  · subst hnewline
    have hnil : lexemes? [] = some [] := rfl
    have hnewline := lexemes?_append_newline [] text
    rw [hnil] at hnewline
    simpa using hnewline
  · obtain ⟨line, lines, hlines⟩ := List.exists_cons_of_ne_nil (pieces_ne_nil (· == '\n') text)
    have hplain := isPlain_of_isBlank hc
    have hline : ofLine (c :: line) = ofLine line := by
      rw [ofLine, scan, if_neg hplain.1, if_neg Bool.false_ne_true, if_neg hplain.2.1,
        if_neg hplain.2.2]
      exact scan_append_blank hc false [] line
    have hparts := pieces_cons_of_false (p := (· == '\n')) (beq_eq_false_iff_ne.2 hnewline) text
    rw [lexemes?, lexemes?, hparts, hlines, List.headD_cons, List.tail_cons, List.mapM_cons,
      List.mapM_cons, hline]

/-- Blanks before a text have no lexeme, and begin none behind. -/
theorem lexemes?_blanks_append {gap : List Char} (h : ∀ c ∈ gap, isBlank c = true)
    (text : List Char) : lexemes? (gap ++ text) = lexemes? text := by
  induction gap with
  | nil => rfl
  | cons c gap ih =>
      obtain ⟨hc, hgap⟩ := List.forall_mem_cons.1 h
      rw [List.cons_append, lexemes?_cons_blank hc, ih hgap]

/-- The quotation marks before the place that the text ends at are even in number on its line. -/
def Outside (front : List Char) : Prop :=
  Even (((pieces (· == '\n') front).getLast (pieces_ne_nil _ front)).count '"')

theorem outside_append_newline {line more : List Char} (h : Outside (line ++ '\n' :: more)) :
    Outside more := by
  have hparts := pieces_append_mark (p := (· == '\n')) (rfl : ('\n' == '\n') = true) line more
  unfold Outside at h ⊢
  simp only [hparts] at h
  rwa [List.getLast_append_of_ne_nil _ (pieces_ne_nil _ more)] at h

/-- Up to a place outside of quotation marks a text is read, or it has its fault on a line before,
whatever follows. -/
theorem Outside.cases {front : List Char} (h : Outside front) :
    (∃ e, ∀ rest, ofText (front ++ rest) = .error e) ∨ (lexemes? front).isSome = true := by
  induction hlength : front.length using Nat.strongRecOn generalizing front with
  | ind n ih =>
      subst hlength
      by_cases hline : '\n' ∈ front
      · obtain ⟨line, more, rfl⟩ := List.append_of_mem hline
        have hrest (rest : List Char) := ofText_append_newline line (more ++ rest)
        cases hfirst : ofText line with
        | error e =>
            refine .inl ⟨e, fun rest => ?_⟩
            rw [List.append_assoc, List.cons_append, hrest, hfirst]
            rfl
        | ok found =>
            have hshorter : more.length < (line ++ '\n' :: more).length := by
              rw [List.length_append, List.length_cons]
              omega
            have hfound := lexemes?_eq_some_iff.2 ⟨found, hfirst, rfl⟩
            rcases ih _ hshorter (outside_append_newline h) rfl with ⟨e, he⟩ | hmore
            · refine .inl ⟨e.renumber (· + (line.count '\n' + 1)), fun rest => ?_⟩
              rw [List.append_assoc, List.cons_append, hrest, hfirst, he]
              rfl
            · rw [lexemes?_append_newline, hfound, Option.bind_some, Option.isSome_map]
              exact .inr hmore
      · refine .inr ?_
        rw [lexemes?_line hline, ofLine_isSome_iff]
        unfold Outside at h
        simpa only [pieces_of_notMem hline, List.getLast_singleton] using h

section

variable {c : Char} {brace : Lexeme} {front gap : List Char}
  (hbrace : Brace c brace) (hfront : (lexemes? front).isSome = true)
  (hgap : ∀ c ∈ gap, isBlank c = true)

include hbrace hfront hgap

theorem lexemes?_blanks_brace (rest : List Char) :
    lexemes? (front ++ gap ++ c :: rest) = lexemes? (front ++ c :: rest) := by
  have hspaced := lexemes?_append_blanks hgap front
  rw [lexemes?_append_brace hbrace (.inl hfront),
    lexemes?_append_brace hbrace (.inl (by rw [hspaced]; exact hfront)), hspaced]

theorem lexemes?_brace_blanks (rest : List Char) :
    lexemes? (front ++ c :: (gap ++ rest)) = lexemes? (front ++ c :: rest) := by
  rw [lexemes?_append_brace hbrace (.inl hfront), lexemes?_append_brace hbrace (.inl hfront),
    lexemes?_blanks_append hgap]

end

end Token

namespace Query

/-- The same query, or the same fault, be it on another line. -/
def SameButLine (result other : Except TextError Query) : Prop :=
  result.mapError TextError.fault = other.mapError TextError.fault

theorem sameButLine_renumberFault (f : Nat → Nat) (result : Except TextError Query) :
    SameButLine (renumberFault f result) result := by
  cases result <;> rfl

/-- Tokens make the same query, or have the same fault, if their lexemes are the same. -/
theorem sameButLine_ofTokens {tokens others : List Token}
    (h : tokens.map Token.lexeme = others.map Token.lexeme) :
    SameButLine (ofTokens tokens) (ofTokens others) := by
  have hunnumbered (tokens : List Token) :
      tokens.map (Token.renumber fun _ => 0) = (tokens.map Token.lexeme).map (⟨·, 0⟩) := by
    rw [List.map_map]
    rfl
  have hsame : tokens.map (Token.renumber fun _ => 0) = others.map (Token.renumber fun _ => 0) := by
    rw [hunnumbered, hunnumbered, h]
  have hfirst := sameButLine_renumberFault (fun _ => 0) (ofTokens tokens)
  have hsecond := sameButLine_renumberFault (fun _ => 0) (ofTokens others)
  rw [← ofTokens_renumber] at hfirst hsecond
  rw [hsame] at hfirst
  exact hfirst.symm.trans hsecond

theorem fault_of_lexemes?_eq_none {text : List Char} (h : Token.lexemes? text = none) :
    ∃ line, Token.ofText text = .error ⟨.unterminatedString, line⟩ := by
  cases htokens : Token.ofText text with
  | ok tokens =>
      rw [Token.lexemes?_eq_some_iff.2 ⟨tokens, htokens, rfl⟩] at h
      cases h
  | error e =>
      obtain ⟨fault, line⟩ := e
      obtain rfl : fault = .unterminatedString := Token.fault_of_ofLines htokens
      exact ⟨line, rfl⟩

/-- Texts make the same query, or have the same fault, if their lexemes are the same. -/
theorem sameButLine_of_lexemes? {text other : List Char}
    (h : Token.lexemes? text = Token.lexemes? other) :
    SameButLine (ofText (String.ofList text)) (ofText (String.ofList other)) := by
  rw [ofText, ofText, String.toList_ofList, String.toList_ofList]
  cases hother : Token.lexemes? other with
  | none =>
      obtain ⟨line, hline⟩ := fault_of_lexemes?_eq_none (h.trans hother)
      obtain ⟨otherLine, hotherLine⟩ := fault_of_lexemes?_eq_none hother
      rw [hline, hotherLine]
      rfl
  | some lexemes =>
      obtain ⟨tokens, htokens, rfl⟩ := Token.lexemes?_eq_some_iff.1 (h.trans hother)
      obtain ⟨others, hothers, hsame⟩ := Token.lexemes?_eq_some_iff.1 hother
      rw [htokens, hothers]
      exact sameButLine_ofTokens hsame.symm

variable {c : Char} {front gap : List Char}

/-- Blanks right before or right behind a brace that stands outside of quotation marks do not
matter: the text makes the same query with them, or has the same fault, be it on another line. -/
theorem ofText_brace_spaced (hc : c = '\x7b' ∨ c = '\x7d') (hfront : Token.Outside front)
    (hgap : ∀ c ∈ gap, isBlank c = true) (rest : List Char) :
    SameButLine (ofText (String.ofList (front ++ gap ++ c :: rest)))
        (ofText (String.ofList (front ++ c :: rest))) ∧
      SameButLine (ofText (String.ofList (front ++ c :: (gap ++ rest))))
        (ofText (String.ofList (front ++ c :: rest))) := by
  obtain ⟨brace, hbrace⟩ : ∃ brace, Token.Brace c brace := by
    rcases hc with rfl | rfl
    · exact ⟨_, .opening⟩
    · exact ⟨_, .closing⟩
  rcases hfront.cases with ⟨e, he⟩ | hfront
  · have hfault (rest : List Char) : ofText (String.ofList (front ++ rest)) = .error e := by
      rw [ofText, String.toList_ofList, he]
      rfl
    rw [List.append_assoc, hfault, hfault, hfault]
    exact ⟨rfl, rfl⟩
  · exact ⟨sameButLine_of_lexemes? (Token.lexemes?_blanks_brace hbrace hfront hgap rest),
      sameButLine_of_lexemes? (Token.lexemes?_brace_blanks hbrace hfront hgap rest)⟩

/-- The brace behind a quoted brace, with a tab and two newlines at it. -/
theorem ofText_brace_spaced_where :
    ('\x7d' = '\x7b' ∨ '\x7d' = '\x7d') ∧
      Token.Outside "FETCH users \x7b\nWHERE \x7b name: \"\x7d\"".toList ∧
      (∀ c ∈ "\t \n\n".toList, isBlank c = true) ∧
      SameButLine (ofText "FETCH users \x7b\nWHERE \x7b name: \"\x7d\"\t \n\n\x7d\x7d")
        (ofText "FETCH users \x7b\nWHERE \x7b name: \"\x7d\"\x7d\x7d") ∧
      SameButLine (ofText "FETCH users \x7b\nWHERE \x7b name: \"\x7d\"\x7d\t \n\n\x7d")
        (ofText "FETCH users \x7b\nWHERE \x7b name: \"\x7d\"\x7d\x7d") := by
  have houtside : Token.Outside "FETCH users \x7b\nWHERE \x7b name: \"\x7d\"".toList := by
    unfold Token.Outside
    decide +kernel
  have hblank : ∀ c ∈ "\t \n\n".toList, isBlank c = true :=
    List.all_iff_forall_prop.1 (by decide)
  have hspaced := ofText_brace_spaced (.inr rfl) houtside hblank "\x7d".toList
  exact ⟨.inr rfl, houtside, hblank, hspaced.1, hspaced.2⟩

end Query

end PropertyGraph
