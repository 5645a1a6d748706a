import PropertyGraph.Language.Token
import PropertyGraph.Proofs.Except
import PropertyGraph.Proofs.Text.Blank
import PropertyGraph.Proofs.Text.Word

/-!
The tokens of a text. Each text lexeme stands in a line, the first of all where the text begins but
for blanks; and a line of plain text, with quoted text in it or without, is one lexeme. The numbers
of the lines do not touch the lexemes.
-/

namespace PropertyGraph

open Text

namespace Token

theorem text_mem_ofChunk {chunk : List Char} {s : String} (h : .text s ∈ ofChunk chunk) :
    s.toList = strip chunk ∧ strip chunk ≠ [] := by
  unfold ofChunk at h
  split at h
  case isTrue => cases h
  case isFalse hne =>
    rw [Lexeme.text.inj (List.mem_singleton.1 h), String.toList_ofList]
    exact ⟨rfl, by simpa using hne⟩

theorem ofChunk_of_strip {chunk : List Char} (hne : chunk ≠ []) (hstrip : strip chunk = chunk) :
    ofChunk chunk = [.text (String.ofList chunk)] := by
  rw [ofChunk, hstrip, if_neg (by simpa using hne)]

theorem head_of_ofChunk {chunk : List Char} {s : String} (h : .text s ∈ ofChunk chunk)
    (rest : List Char) : ((chunk ++ rest).dropWhile isBlank).head? = s.toList.head? := by
  obtain ⟨hstrip, hne⟩ := text_mem_ofChunk h
  rw [head?_dropWhile_append hne, hstrip]

/-- A brace and its lexeme. -/
inductive Brace : Char → Lexeme → Prop where
  | opening : Brace '\x7b' .opening
  | closing : Brace '\x7d' .closing

namespace Brace

variable {c : Char} {brace : Lexeme} (h : Brace c brace)

include h

theorem notMem : c ∉ ['"', '\n'] := by
  cases h <;> decide

theorem ne_text (s : String) : .text s ≠ brace := by
  cases h <;> nofun

theorem scan_cons (chunk rest : List Char) :
    scan false chunk (c :: rest) =
      (scan false [] rest).map fun more => ofChunk chunk.reverse ++ brace :: more := by
  cases h <;> rfl

end Brace

/-- A character is added to the chunk, or is a brace that ends it. -/
theorem scan_cons (insideQuotes : Bool) (chunk : List Char) (c : Char) :
    (∃ inside, ∀ rest, scan insideQuotes chunk (c :: rest) = scan inside (c :: chunk) rest) ∨
      ∃ brace, Brace c brace ∧ ∀ rest, scan insideQuotes chunk (c :: rest) =
        (scan false [] rest).map fun more => ofChunk chunk.reverse ++ brace :: more := by
  by_cases hquote : c = '"'
  · exact .inl ⟨!insideQuotes, fun rest => by rw [scan, if_pos hquote]⟩
  cases insideQuotes with
  | true => exact .inl ⟨true, fun rest => by rw [scan, if_neg hquote, if_pos rfl]⟩
  | false =>
      by_cases hopening : c = '\x7b'
      · subst hopening
        exact .inr ⟨.opening, .opening, Brace.opening.scan_cons chunk⟩
      by_cases hclosing : c = '\x7d'
      · subst hclosing
        exact .inr ⟨.closing, .closing, Brace.closing.scan_cons chunk⟩
      refine .inl ⟨false, fun rest => ?_⟩
      rw [scan, if_neg hquote, if_neg Bool.false_ne_true, if_neg hopening, if_neg hclosing]

/-- A character joins the chunk, a brace between quotation marks only. -/
theorem scan_push {insideQuotes : Bool} {c : Char}
    (h : c = '\x7b' ∨ c = '\x7d' → insideQuotes = true) (chunk rest : List Char) :
    scan insideQuotes chunk (c :: rest) =
      scan (if c = '"' then !insideQuotes else insideQuotes) (c :: chunk) rest := by
  by_cases hquote : c = '"'
  · rw [scan, if_pos hquote, if_pos hquote]
  rw [scan, if_neg hquote, if_neg hquote]
  cases insideQuotes with
  | true => rfl
  | false =>
      rw [if_neg Bool.false_ne_true, if_neg fun hopening => Bool.false_ne_true (h (.inl hopening)),
        if_neg fun hclosing => Bool.false_ne_true (h (.inr hclosing))]

theorem scan_cons_cases {insideQuotes : Bool} {chunk rest : List Char} {c : Char}
    {lexemes : List Lexeme} (h : scan insideQuotes chunk (c :: rest) = some lexemes) :
    (∃ inside, scan inside (c :: chunk) rest = some lexemes) ∨
      ∃ brace more, (∀ s, .text s ≠ brace) ∧ scan false [] rest = some more ∧
        lexemes = ofChunk chunk.reverse ++ brace :: more := by
  rcases scan_cons insideQuotes chunk c with ⟨inside, hscan⟩ | ⟨brace, hbrace, hscan⟩
  · exact .inl ⟨inside, (hscan rest).symm.trans h⟩
  · obtain ⟨more, hmore, rfl⟩ := Option.map_eq_some_iff.1 ((hscan rest).symm.trans h)
    exact .inr ⟨brace, more, hbrace.ne_text, hmore, rfl⟩

theorem scan_nil_eq {insideQuotes : Bool} {chunk : List Char} {lexemes : List Lexeme}
    (h : scan insideQuotes chunk [] = some lexemes) : lexemes = ofChunk chunk.reverse := by
  rw [scan] at h
  split at h
  · cases h
  · exact (Option.some.inj h).symm

/-- Each text lexeme is a chunk of what was read and of what is left. -/
theorem exists_chunk_of_scan {insideQuotes : Bool} {chunk rest : List Char} {lexemes : List Lexeme}
    (h : scan insideQuotes chunk rest = some lexemes) {s : String} (hs : .text s ∈ lexemes) :
    ∃ part, part <:+: chunk.reverse ++ rest ∧ .text s ∈ ofChunk part := by
  induction rest generalizing insideQuotes chunk lexemes with
  | nil =>
      rw [scan_nil_eq h] at hs
      exact ⟨chunk.reverse, (List.prefix_append _ _).isInfix, hs⟩
  | cons c rest ih =>
      rcases scan_cons_cases h with ⟨inside, hread⟩ | ⟨brace, more, hbrace, hmore, rfl⟩
      · simpa using ih hread hs
      · rcases List.mem_append.1 hs with hs | hs
        · exact ⟨chunk.reverse, (List.prefix_append _ _).isInfix, hs⟩
        · obtain ⟨part, hpart, hs⟩ := ih hmore (List.mem_of_ne_of_mem (hbrace s) hs)
          exact ⟨part, hpart.trans ⟨chunk.reverse ++ [c], [], by simp⟩, hs⟩

/-- A text lexeme that comes first begins as the line does after blanks. -/
theorem head_of_scan {insideQuotes : Bool} {chunk rest : List Char} {s : String}
    {after : List Lexeme} (h : scan insideQuotes chunk rest = some (.text s :: after)) :
    ((chunk.reverse ++ rest).dropWhile isBlank).head? = s.toList.head? := by
  induction rest generalizing insideQuotes chunk with
  | nil => exact head_of_ofChunk (scan_nil_eq h ▸ List.mem_cons_self) []
  | cons c rest ih =>
      rcases scan_cons_cases h with ⟨inside, hread⟩ | ⟨brace, more, hbrace, -, hlexemes⟩
      · simpa using ih hread
      · refine head_of_ofChunk ?_ (c :: rest)
        cases hfirst : ofChunk chunk.reverse with
        | nil =>
            rw [hfirst] at hlexemes
            exact absurd (List.cons.inj hlexemes).1 (hbrace s)
        | cons first chunks =>
            rw [hfirst] at hlexemes
            rw [(List.cons.inj hlexemes).1]
            exact List.mem_cons_self

theorem exists_of_ofLines_cons {line : List Char} {lines : List (List Char)} {number : Nat}
    {tokens : List Token} (h : ofLines number (line :: lines) = .ok tokens) :
    ∃ lexemes more, ofLine line = some lexemes ∧ ofLines (number + 1) lines = .ok more ∧
      tokens = lexemes.map (⟨·, number⟩) ++ more := by
  rw [ofLines] at h
  split at h
  case h_1 => cases h
  case h_2 lexemes hline =>
    obtain ⟨more, hmore, h⟩ := exists_of_bind h
    exact ⟨lexemes, more, hline, hmore, (Except.ok.inj h).symm⟩

theorem exists_chunk_of_ofLines {lines : List (List Char)} {number : Nat} {tokens : List Token}
    (h : ofLines number lines = .ok tokens) {s : String}
    (hs : .text s ∈ tokens.map Token.lexeme) :
    ∃ line ∈ lines, ∃ part, part <:+: line ∧ .text s ∈ ofChunk part := by
  induction lines generalizing number tokens with
  | nil =>
      obtain rfl := Except.ok.inj h
      cases hs
  | cons line rest ih =>
      obtain ⟨lexemes, more, hline, hmore, rfl⟩ := exists_of_ofLines_cons h
      rw [List.map_append, List.mem_append] at hs
      rcases hs with hs | hs
      · rw [List.map_map] at hs
        exact ⟨line, List.mem_cons_self, exists_chunk_of_scan hline (by simpa using hs)⟩
      · obtain ⟨other, hother, hpart⟩ := ih hmore hs
        exact ⟨other, List.mem_cons_of_mem _ hother, hpart⟩

/-- The text lexemes of a text stand in it. -/
theorem infix_of_ofText {text : List Char} {tokens : List Token} (h : ofText text = .ok tokens)
    {s : String} (hs : .text s ∈ tokens.map Token.lexeme) : s.toList <:+: text := by
  obtain ⟨line, hline, part, hpart, hs⟩ := exists_chunk_of_ofLines h hs
  rw [(text_mem_ofChunk hs).1]
  exact (strip_isInfix part).trans (hpart.trans (infix_of_mem_pieces hline))

/-- Text lexemes have words. -/
theorem words_ne_nil_of_ofText {text : List Char} {tokens : List Token}
    (h : ofText text = .ok tokens) {s : String} (hs : .text s ∈ tokens.map Token.lexeme) :
    words s.toList ≠ [] := by
  obtain ⟨-, -, part, -, hs⟩ := exists_chunk_of_ofLines h hs
  obtain ⟨hstrip, hne⟩ := text_mem_ofChunk hs
  rw [hstrip]
  exact words_ne_nil (List.head_mem hne) (isBlank_head_strip hne)

/-- The first lexeme of a text begins as one of its lines does after blanks. -/
theorem head_of_ofLines {lines : List (List Char)} {number : Nat} {tokens : List Token}
    (h : ofLines number lines = .ok tokens) {s : String} {after : List Lexeme}
    (hs : tokens.map Token.lexeme = .text s :: after) :
    ∃ line ∈ lines, (line.dropWhile isBlank).head? = s.toList.head? := by
  induction lines generalizing number tokens with
  | nil =>
      obtain rfl := Except.ok.inj h
      cases hs
  | cons line rest ih =>
      obtain ⟨lexemes, more, hline, hmore, rfl⟩ := exists_of_ofLines_cons h
      cases lexemes with
      | nil =>
          obtain ⟨other, hother, hhead⟩ := ih hmore hs
          exact ⟨other, List.mem_cons_of_mem _ hother, hhead⟩
      | cons first others =>
          obtain rfl : first = .text s := (List.cons.inj hs).1
          exact ⟨line, List.mem_cons_self, head_of_scan hline⟩

theorem fault_of_ofLines {lines : List (List Char)} {number : Nat} {e : TextError}
    (h : ofLines number lines = .error e) : e.fault = .unterminatedString := by
  induction lines generalizing number with
  | nil => cases h
  | cons line rest ih =>
      rw [ofLines] at h
      split at h
      case h_1 =>
        rw [← Except.error.inj h]
      case h_2 => exact ih (map_eq_error_iff.1 h)

theorem ofLines_cons_ok {line : List Char} {lexemes : List Lexeme} {lines : List (List Char)}
    {number : Nat} {more : List Token} (hline : ofLine line = some lexemes)
    (hmore : ofLines (number + 1) lines = .ok more) :
    ofLines number (line :: lines) = .ok (lexemes.map (⟨·, number⟩) ++ more) := by
  rw [ofLines, hline]
  simp only [hmore]
  rfl

/-- Lines have the same lexemes whatever their numbers are. -/
theorem ofLines_renumber {lines : List (List Char)} {number : Nat} {tokens : List Token}
    (h : ofLines number lines = .ok tokens) (other : Nat) :
    ∃ others, ofLines other lines = .ok others ∧
      others.map Token.lexeme = tokens.map Token.lexeme := by
  induction lines generalizing number other tokens with
  | nil => exact ⟨tokens, h, rfl⟩
  | cons line rest ih =>
      obtain ⟨lexemes, more, hline, hmore, rfl⟩ := exists_of_ofLines_cons h
      obtain ⟨others, hothers, hsame⟩ := ih hmore (other + 1)
      exact ⟨_, ofLines_cons_ok hline hothers, by simp [hsame, Function.comp_def]⟩

/-- No quotation mark and no brace. -/
def IsPlain (c : Char) : Prop := c ≠ '"' ∧ c ≠ '\x7b' ∧ c ≠ '\x7d'

instance (c : Char) : Decidable (IsPlain c) := inferInstanceAs (Decidable (_ ∧ _))

theorem isPlain_of_isWordChar {c : Char} (h : isWordChar c = true) : IsPlain c := by
  refine ⟨?_, ?_, ?_⟩
  all_goals
    rintro rfl
    exact absurd h (by decide)

theorem scan_append_plain {plain : List Char} (h : ∀ c ∈ plain, IsPlain c)
    (chunk rest : List Char) :
    scan false chunk (plain ++ rest) = scan false (plain.reverse ++ chunk) rest := by
  induction plain generalizing chunk with
  | nil => rfl
  | cons c plain ih =>
      obtain ⟨⟨hquote, hopening, hclosing⟩, hplain⟩ := List.forall_mem_cons.1 h
      rw [List.cons_append, scan, if_neg hquote, if_neg Bool.false_ne_true, if_neg hopening,
        if_neg hclosing, ih hplain]
      simp

/-- Between quotation marks everything is text. -/
theorem scan_append_quoted {inner : List Char} (h : '"' ∉ inner) (chunk rest : List Char) :
    scan true chunk (inner ++ '"' :: rest) = scan false ('"' :: (inner.reverse ++ chunk)) rest := by
  induction inner generalizing chunk with
  | nil => rfl
  | cons c inner ih =>
      rw [List.mem_cons, not_or] at h
      rw [List.cons_append, scan, if_neg (Ne.symm h.1), if_pos rfl, ih h.2]
      simp

theorem ofLine_of_plain {line : List Char} (h : ∀ c ∈ line, IsPlain c) :
    ofLine line = some (ofChunk line) := by
  have hscan := scan_append_plain h [] []
  rw [List.append_nil, List.append_nil] at hscan
  rw [ofLine, hscan, scan, List.reverse_reverse]
  rfl

/-- A line that ends in quoted text is one chunk. -/
theorem ofLine_of_quoted {front inner : List Char} (hfront : ∀ c ∈ front, IsPlain c)
    (hinner : '"' ∉ inner) :
    ofLine (front ++ '"' :: (inner ++ ['"'])) = some (ofChunk (front ++ '"' :: (inner ++ ['"']))) := by
  rw [ofLine, scan_append_plain hfront, scan, if_pos rfl, Bool.not_false,
    scan_append_quoted hinner, scan]
  simp

/-- A quotation mark that is open stays open without another. -/
theorem scan_true_of_notMem {rest : List Char} (h : '"' ∉ rest) (chunk : List Char) :
    scan true chunk rest = none := by
  induction rest generalizing chunk with
  | nil => rfl
  | cons c rest ih =>
      rw [List.mem_cons, not_or] at h
      rw [scan, if_neg (Ne.symm h.1), if_pos rfl, ih h.2]

/-- A brace ends what is scanned before it, unless that leaves a quotation mark open which is closed
behind the brace. -/
theorem scan_append_brace {c : Char} {brace : Lexeme} (hbrace : Brace c brace)
    {insideQuotes : Bool} {chunk line rest : List Char}
    (h : (scan insideQuotes chunk line).isSome = true ∨ '"' ∉ rest) :
    scan insideQuotes chunk (line ++ c :: rest) = (scan insideQuotes chunk line).bind fun found =>
      (scan false [] rest).map (found ++ brace :: ·) := by
  induction line generalizing insideQuotes chunk with
  | nil =>
      cases insideQuotes with
      | false => exact hbrace.scan_cons chunk rest
      | true =>
          have hrest : '"' ∉ rest := h.resolve_left Bool.false_ne_true
          have hquote : '"' ≠ c := fun hc => hbrace.notMem (hc ▸ List.mem_cons_self)
          exact scan_true_of_notMem (List.not_mem_cons_of_ne_of_not_mem hquote hrest) chunk
  | cons d line ih =>
      rcases scan_cons insideQuotes chunk d with ⟨inside, hscan⟩ | ⟨first, -, hscan⟩
      · rw [hscan] at h
        rw [List.cons_append, hscan, hscan, ih h]
      · rw [hscan, Option.isSome_map] at h
        rw [List.cons_append, hscan, hscan, ih h]
        cases scan false [] line <;> simp [Function.comp_def]

theorem ofLine_append_brace {c : Char} {brace : Lexeme} (hbrace : Brace c brace)
    {line rest : List Char} (h : (ofLine line).isSome = true ∨ '"' ∉ rest) :
    ofLine (line ++ c :: rest) =
      (ofLine line).bind fun found => (ofLine rest).map (found ++ brace :: ·) :=
  scan_append_brace hbrace h

/-- A brace after plain text is a lexeme of its own, and the line is scanned anew behind it. -/
theorem ofLine_append_opening {front : List Char} (hfront : ∀ c ∈ front, IsPlain c)
    (rest : List Char) :
    ofLine (front ++ '\x7b' :: rest) =
      (ofLine rest).map fun more => ofChunk front ++ .opening :: more := by
  have hline := ofLine_of_plain hfront
  rw [ofLine_append_brace .opening (.inl (by rw [hline]; rfl)), hline]
  rfl

/-- Lines that can be scanned make the tokens of each, one line after another. -/
theorem exists_ofLines {lines : List (List Char)} {lexemes : List (List Lexeme)}
    (h : List.Forall₂ (fun line found => ofLine line = some found) lines lexemes) (number : Nat) :
    ∃ tokens, ofLines number lines = .ok tokens ∧
      tokens.map Token.lexeme = lexemes.flatten := by
  induction h generalizing number with
  | nil => exact ⟨[], rfl, rfl⟩
  | cons hline _ ih =>
      obtain ⟨more, hmore, hlexemes⟩ := ih (number + 1)
      exact ⟨_, ofLines_cons_ok hline hmore, by simp [hlexemes, Function.comp_def]⟩

/-- Lines joined to a text are scanned one by one. -/
theorem ofText_join {lines : List (List Char)} (hne : lines ≠ [])
    (h : ∀ line ∈ lines, '\n' ∉ line) : ofText (join ['\n'] lines) = ofLines 1 lines := by
  cases lines with
  | nil => exact absurd rfl hne
  | cons line more =>
      rw [ofText, pieces_join '\n' [] List.not_mem_nil h]
      simp

end Token

end PropertyGraph
