import PropertyGraph.Proofs.Language.Spacing

/-!
Tokens written down again. The reader keeps of a text all but blanks: its tokens and its chunk are
what it has consumed, and the chunk holds a brace only behind a quotation mark that is open there.
So the tokens of a text, written one a line, are read as the same tokens.
-/

namespace PropertyGraph

open Text

namespace Token

/-- The characters of a token as it is written. -/
def chars (token : Token) : List Char := token.lexeme.spelling.toList

/-- A text on one line that is read as far as it goes without meeting a brace: each brace in it
stands behind an odd number of quotation marks. One of these is open at the end or none is. -/
structure IsChunk (chunk : List Char) (insideQuotes : Bool) : Prop where
  newline : '\n' ∉ chunk
  quotes : Even (chunk.count '"') ↔ insideQuotes = false
  braces : ∀ before c after, chunk = before ++ c :: after → c = '\x7b' ∨ c = '\x7d' →
    Odd (before.count '"')

/-- What a text lexeme holds: some text on one line without blanks at its ends, its quotation marks
closed and its braces between them. -/
structure IsText (s : String) : Prop where
  nonempty : s.toList ≠ []
  stripped : strip s.toList = s.toList
  chunk : IsChunk s.toList false

namespace IsChunk

variable {chunk : List Char} {insideQuotes : Bool}

theorem nil : IsChunk [] false where
  newline := List.not_mem_nil
  quotes := by simp
  braces before c after h := by simp at h

/-- A character that is no newline may follow, a brace only where a quotation mark is open. -/
theorem push (h : IsChunk chunk insideQuotes) {c : Char} (hc : c ≠ '\n')
    (hbrace : c = '\x7b' ∨ c = '\x7d' → insideQuotes = true) :
    IsChunk (chunk ++ [c]) (if c = '"' then !insideQuotes else insideQuotes) where
  newline := by simp [h.newline, Ne.symm hc]
  quotes := by
    rw [List.count_append, List.count_singleton]
    by_cases hquote : c = '"'
    · simp [hquote, Nat.even_add_one, h.quotes]
    · simp [hquote, h.quotes]
  braces before d after hchunk hd := by
    cases after using List.reverseRecOn with
    | nil =>
        obtain ⟨rfl, rfl⟩ := List.append_singleton_inj.1 hchunk
        rw [← Nat.not_even_iff_odd, h.quotes, hbrace hd]
        exact Bool.noConfusion
    | append_singleton after last =>
        rw [← List.cons_append, ← List.append_assoc] at hchunk
        exact h.braces before d after (List.append_singleton_inj.1 hchunk).1 hd

/-- Blanks around a chunk do not matter. -/
theorem of_blanks {lead trail : List Char} (hlead : ∀ c ∈ lead, isBlank c = true)
    (htrail : ∀ c ∈ trail, isBlank c = true) (h : IsChunk (lead ++ (chunk ++ trail)) insideQuotes) :
    IsChunk chunk insideQuotes := by
  have hcount {blanks : List Char} (hblanks : ∀ c ∈ blanks, isBlank c = true) :
      blanks.count '"' = 0 :=
    List.count_eq_zero.2 fun hmem => (isPlain_of_isBlank (hblanks _ hmem)).1 rfl
  refine ⟨fun hmem => h.newline (by simp [hmem]), ?_, fun before c after hchunk hc => ?_⟩
  · have hquotes := h.quotes
    rwa [List.count_append, List.count_append, hcount hlead, hcount htrail, Nat.zero_add,
      Nat.add_zero] at hquotes
  · have hodd := h.braces (lead ++ before) c (after ++ trail) (by simp [hchunk]) hc
    rwa [List.count_append, hcount hlead, Nat.zero_add] at hodd

theorem strip (h : IsChunk chunk insideQuotes) : IsChunk (strip chunk) insideQuotes := by
  obtain ⟨lead, trail, hlead, htrail, hchunk⟩ := exists_strip_append chunk
  exact of_blanks hlead htrail (hchunk ▸ h)

end IsChunk

theorem isText_of_mem_ofChunk {chunk : List Char} (h : IsChunk chunk false) {s : String}
    (hs : .text s ∈ ofChunk chunk) : IsText s := by
  obtain ⟨hstrip, hne⟩ := text_mem_ofChunk hs
  rw [← hstrip] at hne
  exact ⟨hne, by rw [hstrip, strip_strip], hstrip ▸ h.strip⟩

/-- The lexemes of a chunk are all of it but blanks. -/
theorem visible_ofChunk (chunk : List Char) :
    visible ((ofChunk chunk).flatMap fun lexeme => lexeme.spelling.toList) = visible chunk := by
  unfold ofChunk
  split
  case isTrue h =>
    rw [← visible_strip chunk, List.isEmpty_iff.1 h]
    rfl
  case isFalse => simp [Lexeme.spelling, visible_strip]

/-- A chunk is scanned to its end as one text. -/
theorem scan_of_isChunk {chunk : List Char} (h : IsChunk chunk false) (front : List Char)
    {rest : List Char} (hchunk : chunk = front ++ rest) :
    scan (decide (Odd (front.count '"'))) front.reverse rest = some (ofChunk chunk) := by
  induction rest generalizing front with
  | nil =>
      rw [List.append_nil] at hchunk
      have heven := h.quotes.2 rfl
      rw [scan, ← hchunk, if_neg (by simpa using heven), List.reverse_reverse]
  | cons c rest ih =>
      have hnext := ih (front ++ [c]) (by simp [hchunk])
      rw [List.reverse_append, List.reverse_singleton, List.singleton_append,
        List.count_append, List.count_singleton] at hnext
      have hbrace : c = '\x7b' ∨ c = '\x7d' → decide (Odd (front.count '"')) = true :=
        fun hc => decide_eq_true (h.braces front c rest hchunk hc)
      rw [scan_push hbrace]
      by_cases hquote : c = '"'
      · simpa [hquote, Nat.odd_add_one, -Nat.not_odd_iff_even] using hnext
      · simpa [hquote] using hnext

theorem ofLine_of_isText {s : String} (h : IsText s) : ofLine s.toList = some [.text s] := by
  have hscan := scan_of_isChunk h.chunk [] rfl
  rw [ofChunk_of_strip h.nonempty h.stripped, String.ofList_toList] at hscan
  exact hscan

section

variable {lexeme : Lexeme} (h : ∀ s, .text s = lexeme → IsText s)

include h

theorem ofLine_spelling : ofLine lexeme.spelling.toList = some [lexeme] := by
  cases lexeme with
  | text s => exact ofLine_of_isText (h s rfl)
  | opening => rfl
  | closing => rfl

theorem newline_notMem_spelling : '\n' ∉ lexeme.spelling.toList := by
  cases lexeme with
  | text s => exact (h s rfl).chunk.newline
  | opening => decide
  | closing => decide

end

section

variable {tokens : List Token} (h : ∀ s, .text s ∈ tokens.map Token.lexeme → IsText s)

include h

/-- Tokens written one a line are read one a line. -/
theorem ofLines_chars (number : Nat) :
    ofLines number (tokens.map chars) =
      .ok (tokens.mapIdx fun i token => ⟨token.lexeme, number + i⟩) := by
  induction tokens generalizing number with
  | nil => rfl
  | cons token rest ih =>
      have hfirst : ofLine token.chars = some [token.lexeme] :=
        ofLine_spelling fun s hs => h s (hs ▸ List.mem_cons_self)
      have hrest := ih (fun s hs => h s (List.mem_cons_of_mem _ hs)) (number + 1)
      rw [List.map_cons, ofLines_cons_ok hfirst hrest, List.mapIdx_cons]
      simp only [Nat.add_right_comm _ 1, Nat.add_assoc]
      rfl

theorem ofText_join_chars :
    ofText (join ['\n'] (tokens.map chars)) =
      .ok (tokens.mapIdx fun i token => ⟨token.lexeme, i + 1⟩) := by
  cases tokens with
  | nil => rfl
  | cons first rest =>
      have hlines : ∀ line ∈ (first :: rest).map chars, '\n' ∉ line := by
        rw [List.forall_mem_map]
        exact fun token htoken =>
          newline_notMem_spelling fun s hs => h s (hs ▸ List.mem_map_of_mem htoken)
      rw [ofText_join (by simp) hlines, ofLines_chars h]
      simp only [Nat.add_comm 1]

end

end Token

namespace Reader

/-- The reader has kept what it has consumed, but for blanks, and what it has kept is in order. -/
structure Sound (consumed : List Char) (r : Reader) : Prop where
  texts : ∀ s, .text s ∈ r.tokens.map Token.lexeme → Token.IsText s
  chunk : Token.IsChunk r.chunk.reverse r.insideQuotes
  kept : visible (r.tokens.flatMap Token.chars) ++ visible r.chunk.reverse = visible consumed

namespace Sound

variable {consumed : List Char} {r : Reader}

theorem atLine : Sound [] (atLine 1 []) where
  texts := nofun
  chunk := .nil
  kept := rfl

theorem isText_flush (h : Sound consumed r) (hclosed : r.insideQuotes = false) {s : String}
    (hs : .text s ∈ r.flush.map Token.lexeme) : Token.IsText s := by
  rw [flush, List.map_append, List.mem_append] at hs
  rcases hs with hs | hs
  · exact h.texts s hs
  · exact Token.isText_of_mem_ofChunk (hclosed ▸ h.chunk) (by simpa using hs)

theorem visible_flush (h : Sound consumed r) :
    visible (r.flush.flatMap Token.chars) = visible consumed := by
  rw [flush, List.flatMap_append, visible_append, List.flatMap_map]
  exact (congrArg _ (Token.visible_ofChunk _)).trans h.kept

/-- A character other than a newline may go into the chunk, a brace between quotation marks only. -/
theorem push (h : Sound consumed r) {c : Char} (hc : c ≠ '\n')
    (hbrace : c = '\x7b' ∨ c = '\x7d' → r.insideQuotes = true) :
    Sound (consumed ++ [c])
      { r.push c with insideQuotes := if c = '"' then !r.insideQuotes else r.insideQuotes } where
  texts := h.texts
  chunk := by simpa [Reader.push] using h.chunk.push hc hbrace
  kept := by simp [Reader.push, ← h.kept]

theorem part (h : Sound consumed r) (hclosed : r.insideQuotes = false) {c : Char} {brace : Lexeme}
    (hbrace : Token.Brace c brace) : Sound (consumed ++ [c]) (r.part brace) where
  texts s hs := by
    rw [Reader.part, List.map_append, List.mem_append] at hs
    exact h.isText_flush hclosed (hs.resolve_right fun hs =>
      hbrace.ne_text s (List.mem_singleton.1 hs))
  chunk := by
    show Token.IsChunk [] r.insideQuotes
    rw [hclosed]
    exact .nil
  kept := by
    have hspelled : brace.spelling.toList = [c] := by cases hbrace <;> rfl
    simp [Reader.part, h.visible_flush, Token.chars, hspelled]

theorem newline (h : Sound consumed r) (hclosed : r.insideQuotes = false) :
    Sound (consumed ++ ['\n']) (Reader.atLine (r.line + 1) r.flush) where
  texts _ hs := h.isText_flush hclosed hs
  chunk := .nil
  kept := by
    have hblank : visible ['\n'] = [] := by decide
    simp [Reader.atLine, h.visible_flush, hblank]

/-- Reading a character keeps it, and keeps the chunk in order. -/
theorem step (h : Sound consumed r) {c : Char} {next : Reader} (hstep : r.step c = .ok next) :
    Sound (consumed ++ [c]) next := by
  by_cases hnewline : c = '\n'
  · subst hnewline
    unfold Reader.step at hstep
    cases hopen : r.insideQuotes with
    | true => simp [hopen] at hstep
    | false =>
        rw [if_pos rfl, hopen] at hstep
        obtain rfl := Except.ok.inj hstep
        exact h.newline hopen
  rcases step_cases hnewline r with ⟨hbrace, hread⟩ | ⟨brace, hbrace, hopen, hread⟩
  · obtain rfl := Except.ok.inj (hread.symm.trans hstep)
    exact h.push hnewline hbrace
  · obtain rfl := Except.ok.inj (hread.symm.trans hstep)
    exact h.part hopen hbrace

/-- What holds of a reader holds of it after more text. -/
theorem foldlM_step (h : Sound consumed r) {text : List Char} {last : Reader}
    (hrun : text.foldlM Reader.step r = .ok last) : Sound (consumed ++ text) last := by
  induction text generalizing consumed r with
  | nil =>
      obtain rfl := Except.ok.inj hrun
      rwa [List.append_nil]
  | cons c text ih =>
      rw [List.foldlM_cons] at hrun
      obtain ⟨next, hnext, hrun⟩ := exists_of_bind hrun
      rw [List.append_cons]
      exact ih (h.step hnext) hrun

end Sound

/-- What a reader has made of a whole text. -/
theorem sound_of_tokensOf {text : List Char} {tokens : List Token} (h : tokensOf text = .ok tokens) :
    (∀ s, .text s ∈ tokens.map Token.lexeme → Token.IsText s) ∧
      visible (tokens.flatMap Token.chars) = visible text := by
  obtain ⟨last, hrun, hfinish⟩ := exists_of_bind h
  have hlast : Sound text last := Sound.atLine.foldlM_step hrun
  unfold finish at hfinish
  cases hopen : last.insideQuotes with
  | true => simp [hopen] at hfinish
  | false =>
      rw [hopen] at hfinish
      obtain rfl := Except.ok.inj hfinish
      exact ⟨fun s => hlast.isText_flush hopen, hlast.visible_flush⟩

end Reader

namespace Token

/-- The tokens of a text hold all of it but blanks. Each text among them is stripped and on one line,
with an even number of quotation marks and no brace but behind an odd number of them. Written one a
line, the tokens are read again, each on the line that it was written on. -/
theorem ofText_lossless {text : List Char} {tokens : List Token} (h : ofText text = .ok tokens) :
    (∀ s, .text s ∈ tokens.map Token.lexeme → s.toList ≠ [] ∧ strip s.toList = s.toList ∧
      '\n' ∉ s.toList ∧ Even (s.toList.count '"') ∧
      ∀ before c after, s.toList = before ++ c :: after → c = '\x7b' ∨ c = '\x7d' →
        Odd (before.count '"')) ∧
    (tokens.flatMap Token.chars).filter (!isBlank ·) = text.filter (!isBlank ·) ∧
    ofText (join ['\n'] (tokens.map Token.chars)) =
      .ok (tokens.mapIdx fun i token => ⟨token.lexeme, i + 1⟩) := by
  rw [← Reader.tokensOf_eq] at h
  obtain ⟨htexts, hkept⟩ := Reader.sound_of_tokensOf h
  refine ⟨fun s hs => ?_, hkept, ofText_join_chars htexts⟩
  obtain ⟨hne, hstrip, hchunk⟩ := htexts s hs
  exact ⟨hne, hstrip, hchunk.newline, hchunk.quotes.2 rfl, hchunk.braces⟩

/-- A brace between quotation marks, blanks of several kinds, and a line of blanks. -/
theorem ofText_lossless_of_quoted_brace :
    let text := "a\u00a0\x7b x \"\x7b y\" z \x7d\r\n\n\t\x7d \"\"".toList
    let tokens : List Token :=
      [⟨.text "a", 1⟩, ⟨.opening, 1⟩, ⟨.text "x \"\x7b y\" z", 1⟩, ⟨.closing, 1⟩, ⟨.closing, 3⟩,
        ⟨.text "\"\"", 3⟩]
    ofText text = .ok tokens ∧
      (tokens.flatMap Token.chars).filter (!isBlank ·) = "a\x7bx\"\x7by\"z\x7d\x7d\"\"".toList ∧
      ofText (join ['\n'] (tokens.map Token.chars)) =
        .ok [⟨.text "a", 1⟩, ⟨.opening, 2⟩, ⟨.text "x \"\x7b y\" z", 3⟩, ⟨.closing, 4⟩, ⟨.closing, 5⟩,
          ⟨.text "\"\"", 6⟩] := by
  intro text tokens
  have htokens : ofText text = .ok tokens := by decide +kernel
  obtain ⟨-, hkept, hagain⟩ := ofText_lossless htokens
  exact ⟨htokens, hkept.trans (by decide +kernel), hagain⟩

end Token

end PropertyGraph
