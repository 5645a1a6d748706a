import Mathlib.Algebra.Group.Nat.Even
import PropertyGraph.Proofs.Language.Renumber
import PropertyGraph.Proofs.Language.Token

/-!
Tokens in one pass over a text. A reader goes from character to character and keeps the chunk that
has not ended, the number of the line, and whether a quotation mark is open. At a newline nothing is
left of this but the number. So the tokens of a text are those of its lines, and it has none if
there is a line with a quotation mark too many, the first of which is reported.
-/

namespace PropertyGraph

open Text

/-- A text that is read character by character: the tokens found so far, the chunk that has not
ended (last character first), the number of the line, and whether a quotation mark is open. -/
structure Reader where
  tokens : List Token
  chunk : List Char
  line : Nat
  insideQuotes : Bool

namespace Reader

/-- The reader at the start of a line. -/
def atLine (number : Nat) (tokens : List Token) : Reader := ⟨tokens, [], number, false⟩

/-- The tokens once the chunk has ended. -/
def flush (r : Reader) : List Token :=
  r.tokens ++ (Token.ofChunk r.chunk.reverse).map (⟨·, r.line⟩)

/-- The reader with one more character in its chunk. -/
def push (r : Reader) (c : Char) : Reader := { r with chunk := c :: r.chunk }

/-- The reader behind a brace. -/
def part (r : Reader) (brace : Lexeme) : Reader :=
  { r with tokens := r.flush ++ [⟨brace, r.line⟩], chunk := [] }

/-- Read a character. -/
def step (r : Reader) (c : Char) : Except TextError Reader :=
  if c = '\n' then
    if r.insideQuotes then .error ⟨.unterminatedString, some r.line⟩
    else .ok (atLine (r.line + 1) r.flush)
  else if c = '"' then .ok { r.push c with insideQuotes := !r.insideQuotes }
  else if r.insideQuotes then .ok (r.push c)
  else if c = '\x7b' then .ok (r.part .opening)
  else if c = '\x7d' then .ok (r.part .closing)
  else .ok (r.push c)

/-- The tokens at the end of the text. -/
def finish (r : Reader) : Except TextError (List Token) :=
  if r.insideQuotes then .error ⟨.unterminatedString, some r.line⟩ else .ok r.flush

/-- The tokens of a text, read in one pass. -/
def tokensOf (text : List Char) : Except TextError (List Token) := do
  (← text.foldlM step (atLine 1 [])).finish

/-- What a reader makes of the rest of its line and of the lines behind it. -/
def outcome (r : Reader) (rest : List Char) (lines : List (List Char)) :
    Except TextError (List Token) :=
  match Token.scan r.insideQuotes r.chunk rest with
  | none => .error ⟨.unterminatedString, some r.line⟩
  | some lexemes => do
    let more ← Token.ofLines (r.line + 1) lines
    return r.tokens ++ (lexemes.map (⟨·, r.line⟩) ++ more)

variable {r : Reader} {c : Char}

theorem outcome_push (rest : List Char) (lines : List (List Char)) (insideQuotes : Bool)
    (h : Token.scan r.insideQuotes r.chunk (c :: rest) =
      Token.scan insideQuotes (c :: r.chunk) rest) :
    outcome { r.push c with insideQuotes := insideQuotes } rest lines =
      r.outcome (c :: rest) lines := by
  unfold outcome
  rw [h]
  rfl

theorem outcome_part {brace : Lexeme} (hbrace : Token.Brace c brace)
    (hopen : r.insideQuotes = false) (rest : List Char) (lines : List (List Char)) :
    (r.part brace).outcome rest lines = r.outcome (c :: rest) lines := by
  unfold outcome
  rw [hopen, hbrace.scan_cons, part, hopen]
  dsimp only
  cases Token.scan false [] rest with
  | none => rfl
  | some lexemes =>
      cases Token.ofLines (r.line + 1) lines with
      | error e => rfl
      | ok more =>
          refine congrArg Except.ok ?_
          simp [flush]

/-- A character of the line joins the chunk, or is a brace that ends it. -/
theorem step_cases (hc : c ≠ '\n') (r : Reader) :
    ((c = '\x7b' ∨ c = '\x7d' → r.insideQuotes = true) ∧
      r.step c = .ok { r.push c with
        insideQuotes := if c = '"' then !r.insideQuotes else r.insideQuotes }) ∨
      ∃ brace, Token.Brace c brace ∧ r.insideQuotes = false ∧ r.step c = .ok (r.part brace) := by
  unfold step
  rw [if_neg hc]
  by_cases hquote : c = '"'
  · subst hquote
    exact .inl ⟨by simp, rfl⟩
  rw [if_neg hquote, if_neg hquote]
  cases hopen : r.insideQuotes with
  | true => exact .inl ⟨fun _ => rfl, by rw [if_pos rfl, ← hopen]; rfl⟩
  | false =>
      rw [if_neg Bool.false_ne_true]
      by_cases hopening : c = '\x7b'
      · subst hopening
        exact .inr ⟨_, .opening, rfl, rfl⟩
      by_cases hclosing : c = '\x7d'
      · subst hclosing
        exact .inr ⟨_, .closing, rfl, rfl⟩
      rw [if_neg hopening, if_neg hclosing]
      refine .inl ⟨fun hbrace => ?_, by rw [← hopen]; rfl⟩
      exact (hbrace.elim hopening hclosing).elim

/-- A character of the line does not change what is made of the text. -/
theorem exists_step (hc : c ≠ '\n') (r : Reader) :
    ∃ next, r.step c = .ok next ∧
      ∀ rest lines, next.outcome rest lines = r.outcome (c :: rest) lines := by
  rcases step_cases hc r with ⟨hbrace, hstep⟩ | ⟨brace, hbrace, hopen, hstep⟩
  · exact ⟨_, hstep, fun rest lines => outcome_push rest lines _ (Token.scan_push hbrace _ rest)⟩
  · exact ⟨_, hstep, outcome_part hbrace hopen⟩

/-- At the end of the text the reader has made what it had to. -/
theorem finish_eq (r : Reader) : r.finish = r.outcome [] [] := by
  unfold finish outcome Token.scan
  cases r.insideQuotes with
  | true => rfl
  | false =>
      refine congrArg Except.ok ?_
      simp [flush]

/-- At a newline the reader is done with its line: the next one is scanned anew. -/
theorem outcome_newline (hopen : r.insideQuotes = false) (line : List Char)
    (lines : List (List Char)) :
    (atLine (r.line + 1) r.flush).outcome line lines = r.outcome [] (line :: lines) := by
  unfold outcome
  rw [hopen, Token.scan, if_neg Bool.false_ne_true, Token.ofLines]
  show (match Token.ofLine line with
    | none => _
    | some lexemes => _) = _
  cases Token.ofLine line with
  | none => rfl
  | some lexemes =>
      cases hmore : Token.ofLines (r.line + 1 + 1) lines with
      | error e => simp [atLine, hmore]
      | ok more => simp [atLine, flush, hmore]

/-- A reader makes of a text what it makes of its lines. -/
theorem foldlM_step (text : List Char) (r : Reader) :
    (text.foldlM step r >>= finish) =
      r.outcome ((pieces (· == '\n') text).headD []) (pieces (· == '\n') text).tail := by
  induction text generalizing r with
  | nil => exact finish_eq r
  | cons c text ih =>
      rw [List.foldlM_cons, bind_assoc]
      by_cases hc : c = '\n'
      · subst hc
        rw [pieces_cons_of_true (p := (· == '\n')) rfl, step, if_pos rfl]
        cases hopen : r.insideQuotes with
        | true =>
            rw [outcome, hopen]
            rfl
        | false =>
            obtain ⟨line, lines, hlines⟩ :=
              List.exists_cons_of_ne_nil (pieces_ne_nil (· == '\n') text)
            rw [hlines, List.headD_cons, List.tail_cons, ← outcome_newline hopen]
            have hrest := ih (atLine (r.line + 1) r.flush)
            rwa [hlines] at hrest
      · rw [pieces_cons_of_false (p := (· == '\n')) (beq_eq_false_iff_ne.2 hc)]
        obtain ⟨next, hnext, houtcome⟩ := exists_step hc r
        rw [hnext]
        exact (ih next).trans (houtcome _ _)

/-- Reading in one pass gives the tokens of the lines, one line after another. -/
theorem tokensOf_eq (text : List Char) : tokensOf text = Token.ofText text := by
  obtain ⟨line, lines, hlines⟩ := List.exists_cons_of_ne_nil (pieces_ne_nil (· == '\n') text)
  have hread := foldlM_step text (atLine 1 [])
  rw [tokensOf, Token.ofText, hlines, Token.ofLines]
  refine hread.trans ?_
  rw [hlines]
  rfl

end Reader

namespace Token

/-- Tokens, or the fault of their text, on the lines by their other numbers. -/
def renumberAll (f : Nat → Nat) (result : Except TextError (List Token)) :
    Except TextError (List Token) :=
  renumberFault f (List.map (renumber f) <$> result)

/-- The lines before the first that cannot be scanned do not matter to those behind them but for
their number. -/
theorem ofLines_append (number : Nat) (first second : List (List Char)) :
    ofLines number (first ++ second) = do
      let found ← ofLines number first
      let more ← ofLines (number + first.length) second
      return found ++ more := by
  induction first generalizing number with
  | nil => cases hsecond : ofLines number second <;> simp [ofLines, hsecond] <;> rfl
  | cons line first ih =>
      rw [List.cons_append, ofLines, ofLines]
      cases ofLine line with
      | none => rfl
      | some lexemes =>
          have hnumber : number + (line :: first).length = number + 1 + first.length := by
            rw [List.length_cons]
            omega
          simp only [ih, hnumber]
          cases ofLines (number + 1) first with
          | error e => rfl
          | ok found =>
              cases ofLines (number + 1 + first.length) second with
              | error e => rfl
              | ok more =>
                  refine congrArg Except.ok ?_
                  simp

/-- Lines further down have their tokens, or their fault, as much further down. -/
theorem ofLines_add (number count : Nat) (lines : List (List Char)) :
    ofLines (number + count) lines = renumberAll (· + count) (ofLines number lines) := by
  induction lines generalizing number with
  | nil => rfl
  | cons line lines ih =>
      rw [ofLines, ofLines]
      cases ofLine line with
      | none => rfl
      | some lexemes =>
          have hnumber : number + count + 1 = number + 1 + count := by omega
          simp only [hnumber, ih]
          cases ofLines (number + 1) lines with
          | error e => rfl
          | ok more =>
              refine congrArg Except.ok ?_
              simp [renumber, Function.comp_def]

/-- A line is scanned to its end if its quotation marks are even in number, or odd in number where
one is open already. -/
theorem scan_isSome_iff (insideQuotes : Bool) (chunk line : List Char) :
    (scan insideQuotes chunk line).isSome = true ↔
      (Even (line.count '"') ↔ insideQuotes = false) := by
  induction line generalizing insideQuotes chunk with
  | nil => cases insideQuotes <;> simp [scan]
  | cons c line ih =>
      by_cases hquote : c = '"'
      · subst hquote
        rw [scan, if_pos rfl, ih, List.count_cons_self, Nat.even_add_one]
        cases insideQuotes <;> simp
      · rw [scan, if_neg hquote, List.count_cons_of_ne hquote]
        cases insideQuotes with
        | true => exact ih true _
        | false =>
            rw [if_neg Bool.false_ne_true]
            split
            · rw [Option.isSome_map, ih]
            · split
              · rw [Option.isSome_map, ih]
              · rw [ih]

theorem ofLine_eq_none_iff {line : List Char} : ofLine line = none ↔ Odd (line.count '"') := by
  have hscan := scan_isSome_iff false [] line
  rw [← Nat.not_even_iff_odd, ← Option.not_isSome_iff_eq_none, ofLine, hscan]
  simp

theorem ofLine_isSome_iff {line : List Char} :
    (ofLine line).isSome = true ↔ Even (line.count '"') := by
  rw [Option.isSome_iff_ne_none, Ne, ofLine_eq_none_iff, Nat.not_odd_iff_even]

/-- So many lines stand before the first one with a quotation mark too many. -/
def FirstOpen (lines : List (List Char)) (count : Nat) : Prop :=
  ∃ before line after, lines = before ++ line :: after ∧ before.length = count ∧
    Odd (line.count '"') ∧ ∀ earlier ∈ before, Even (earlier.count '"')

theorem firstOpen_cons_iff {line : List Char} {lines : List (List Char)} {count : Nat} :
    FirstOpen (line :: lines) count ↔
      (Odd (line.count '"') ∧ count = 0) ∨
        Even (line.count '"') ∧ ∃ less, count = less + 1 ∧ FirstOpen lines less := by
  constructor
  · rintro ⟨before, found, after, hlines, rfl, hodd, heven⟩
    cases before with
    | nil =>
        obtain ⟨rfl, rfl⟩ := List.cons.inj hlines
        exact .inl ⟨hodd, rfl⟩
    | cons first before =>
        obtain ⟨rfl, rfl⟩ := List.cons.inj hlines
        obtain ⟨hfirst, hbefore⟩ := List.forall_mem_cons.1 heven
        exact .inr ⟨hfirst, _, rfl, before, found, after, rfl, rfl, hodd, hbefore⟩
  · rintro (⟨hodd, rfl⟩ | ⟨heven, less, rfl, before, found, after, rfl, rfl, hodd, hbefore⟩)
    · exact ⟨[], line, lines, rfl, rfl, hodd, nofun⟩
    · exact ⟨line :: before, found, after, rfl, rfl, hodd,
        List.forall_mem_cons.2 ⟨heven, hbefore⟩⟩

theorem ofLines_eq_error_iff {number : Nat} {lines : List (List Char)} {e : TextError} :
    ofLines number lines = .error e ↔
      ∃ count, FirstOpen lines count ∧ e = ⟨.unterminatedString, some (number + count : Nat)⟩ := by
  induction lines generalizing number with
  | nil =>
      refine iff_of_false nofun ?_
      rintro ⟨count, ⟨before, line, after, hlines, -⟩, -⟩
      cases before <;> cases hlines
  | cons line lines ih =>
      rw [ofLines]
      simp only [firstOpen_cons_iff]
      cases hline : ofLine line with
      | none =>
          have hodd := ofLine_eq_none_iff.1 hline
          have hnot := Nat.not_even_iff_odd.2 hodd
          simp [hodd, hnot, eq_comm]
      | some lexemes =>
          have heven : Even (line.count '"') := ofLine_isSome_iff.1 (by rw [hline]; rfl)
          have hnot := Nat.not_odd_iff_even.2 heven
          refine Iff.trans (map_eq_error_iff (f := _)) (ih.trans ?_)
          constructor
          · rintro ⟨count, hfirst, rfl⟩
            exact ⟨count + 1, .inr ⟨heven, count, rfl, hfirst⟩, by congr 2; omega⟩
          · rintro ⟨_, ⟨hodd, -⟩ | ⟨-, count, rfl, hfirst⟩, rfl⟩
            · exact absurd hodd hnot
            · exact ⟨count, hfirst, by congr 2; omega⟩

/-- A first line with a quotation mark too many is there if any line has one. -/
theorem exists_firstOpen_iff {lines : List (List Char)} :
    (∃ count, FirstOpen lines count) ↔ ∃ line ∈ lines, Odd (line.count '"') := by
  induction lines with
  | nil =>
      refine iff_of_false ?_ nofun
      rintro ⟨count, before, line, after, hlines, -⟩
      cases before <;> cases hlines
  | cons line lines ih =>
      rw [List.exists_mem_cons_iff, ← ih]
      constructor
      · rintro ⟨count, h⟩
        rcases firstOpen_cons_iff.1 h with ⟨hodd, -⟩ | ⟨-, less, -, hless⟩
        · exact .inl hodd
        · exact .inr ⟨less, hless⟩
      · rintro (hodd | ⟨less, hless⟩)
        · exact ⟨0, firstOpen_cons_iff.2 (.inl ⟨hodd, rfl⟩)⟩
        · rcases Nat.even_or_odd (line.count '"') with heven | hodd
          · exact ⟨less + 1, firstOpen_cons_iff.2 (.inr ⟨heven, less, rfl, hless⟩)⟩
          · exact ⟨0, firstOpen_cons_iff.2 (.inl ⟨hodd, rfl⟩)⟩

theorem ofText_append_newline (front rest : List Char) :
    ofText (front ++ '\n' :: rest) = do
      let found ← ofText front
      let more ← renumberAll (· + (front.count '\n' + 1)) (ofText rest)
      return found ++ more := by
  rw [ofText, ofText, ofText, pieces_append_mark (p := (· == '\n')) rfl, ofLines_append,
    length_pieces, ofLines_add]

/-- Behind a newline a text is read as if it stood alone, on lines that are as many further down as
there are before it; what stands before the newline comes first, its fault too. A text has no tokens
exactly if the quotation marks of a line are odd in number, and the first such line is reported. One
pass over the text finds the same, tokens and fault. -/
theorem ofText_line_by_line (front rest text : List Char) :
    (ofText (front ++ '\n' :: rest) = do
      let found ← ofText front
      let more ← renumberAll (· + (front.count '\n' + 1)) (ofText rest)
      return found ++ more) ∧
    ((∃ e, ofText text = .error e) ↔ ∃ line ∈ pieces (· == '\n') text, Odd (line.count '"')) ∧
    (∀ e, ofText text = .error e ↔ ∃ count, FirstOpen (pieces (· == '\n') text) count ∧
      e = ⟨.unterminatedString, some (count + 1 : Nat)⟩) ∧
    Reader.tokensOf text = ofText text := by
  have herror (e : TextError) : ofText text = .error e ↔
      ∃ count, FirstOpen (pieces (· == '\n') text) count ∧
        e = ⟨.unterminatedString, some (count + 1 : Nat)⟩ := by
    rw [ofText, ofLines_eq_error_iff]
    simp only [Nat.add_comm 1]
  refine ⟨ofText_append_newline front rest, ?_, herror, Reader.tokensOf_eq text⟩
  rw [← exists_firstOpen_iff]
  constructor
  · rintro ⟨e, he⟩
    obtain ⟨count, hcount, -⟩ := (herror e).1 he
    exact ⟨count, hcount⟩
  · rintro ⟨count, hcount⟩
    exact ⟨_, (herror _).2 ⟨count, hcount, rfl⟩⟩

example : ofText "a \x7b \"\x7d\" \nb\n\"c\nd \"".toList =
    .error ⟨.unterminatedString, some 3⟩ := by
  decide +kernel

end Token

end PropertyGraph
