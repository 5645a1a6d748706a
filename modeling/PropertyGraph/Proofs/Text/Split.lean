import Mathlib.Data.List.Infix
import PropertyGraph.Text.Blank

/-!
What is cut from a text stands in it: pieces, words, what is left when blanks are stripped, and what
is before and after a mark. Of a text that is put together, the pieces and the cuts are those of its
parts.
-/

namespace PropertyGraph

namespace Text

variable {text : List Char}

theorem head_pieces_isPrefix (p : Char → Bool) (text : List Char) :
    (pieces p text).headD [] <+: text := by
  induction text with
  | nil => exact List.prefix_rfl
  | cons c rest ih =>
      cases hc : p c with
      | true => simp [pieces_cons_of_true hc]
      | false =>
          rw [pieces_cons_of_false hc]
          exact List.cons_prefix_cons.2 ⟨rfl, ih⟩

theorem infix_of_mem_pieces {p : Char → Bool} {piece : List Char} (h : piece ∈ pieces p text) :
    piece <:+: text := by
  induction text with
  | nil =>
      obtain rfl := List.mem_singleton.1 h
      exact List.infix_rfl
  | cons c rest ih =>
      have hrest : rest <:+: c :: rest := (List.suffix_cons c rest).isInfix
      cases hc : p c with
      | true =>
          rw [pieces_cons_of_true hc] at h
          rcases List.mem_cons.1 h with rfl | h
          · exact List.nil_infix
          · exact (ih h).trans hrest
      | false =>
          rw [pieces_cons_of_false hc] at h
          rcases List.mem_cons.1 h with rfl | h
          · exact (List.cons_prefix_cons.2 ⟨rfl, head_pieces_isPrefix p rest⟩).isInfix
          · exact (ih (List.mem_of_mem_tail h)).trans hrest

/-- A text has one piece more than it has marks. -/
theorem length_pieces (mark : Char) (text : List Char) :
    (pieces (· == mark) text).length = text.count mark + 1 := by
  induction text with
  | nil => rfl
  | cons c rest ih =>
      by_cases hc : c = mark
      · subst hc
        rw [pieces_cons_of_true (by simp), List.length_cons, ih, List.count_cons_self]
      · have hpos := List.length_pos_of_ne_nil (pieces_ne_nil (· == mark) rest)
        rw [pieces_cons_of_false (by simpa using hc), List.count_cons_of_ne hc, ← ih,
          List.length_cons, List.length_tail]
        omega

theorem infix_of_mem_words {word : List Char} (h : word ∈ words text) : word <:+: text :=
  infix_of_mem_pieces (List.mem_filter.1 h).1

theorem stripEnd_isPrefix (text : List Char) : stripEnd text <+: text := by
  rw [stripEnd, ← List.reverse_suffix, List.reverse_reverse]
  exact List.dropWhile_suffix _

theorem strip_isInfix (text : List Char) : strip text <:+: text :=
  (stripEnd_isPrefix _).isInfix.trans (List.dropWhile_suffix _).isInfix

/-- A text is what stands before the mark, the mark if there is one, and what stands after it. -/
theorem cut_append (mark : Char) (text : List Char) :
    (cut mark text).1 ++ (cut mark text).2.elim [] (mark :: ·) = text := by
  induction text with
  | nil => rfl
  | cons c rest ih =>
      rw [cut]
      split
      case isTrue hc => simp [hc]
      case isFalse => exact congrArg (c :: ·) ih

theorem suffix_of_cut {mark : Char} {after : List Char} (h : (cut mark text).2 = some after) :
    after <:+ text := by
  have htext := cut_append mark text
  rw [h] at htext
  exact (List.suffix_cons mark after).trans ⟨_, htext⟩

/-- A text is what stands before a word in it, the word, and what stands after the word. -/
theorem eq_append_of_cutAt {word before after : List Char}
    (h : cutAt word text = some (before, after)) : text = before ++ (word ++ after) := by
  induction text generalizing before with
  | nil =>
      rw [cutAt] at h
      split at h
      case isTrue hword =>
        cases h
        simpa using hword
      case isFalse => cases h
  | cons c rest ih =>
      rw [cutAt] at h
      split at h
      case isTrue hword =>
        obtain ⟨rfl, rfl⟩ := Prod.mk.inj (Option.some.inj h)
        obtain ⟨after, hafter⟩ := List.isPrefixOf_iff_prefix.1 hword
        rw [← hafter, List.drop_left]
        rfl
      case isFalse =>
        obtain ⟨⟨front, back⟩, hrest, hpair⟩ := Option.map_eq_some_iff.1 h
        obtain ⟨rfl, rfl⟩ := Prod.mk.inj hpair
        rw [List.cons_append, ← ih hrest]

theorem suffix_of_cutAt {word before after : List Char} (h : cutAt word text = some (before, after)) :
    after <:+ text :=
  ⟨before ++ word, by rw [eq_append_of_cutAt h, List.append_assoc]⟩

/-- A word is found at once behind what does not hold its first character. -/
theorem cutAt_append_of_notMem {c : Char} {front : List Char} (h : c ∉ front)
    (word rest : List Char) :
    cutAt (c :: word) (front ++ (c :: word ++ rest)) = some (front, rest) := by
  induction front with
  | nil => simp [cutAt]
  | cons d front ih =>
      rw [List.mem_cons, not_or] at h
      have hprefix : ¬ (c :: word).isPrefixOf (d :: (front ++ (c :: word ++ rest))) = true := by
        rw [List.isPrefixOf_iff_prefix, List.cons_prefix_cons]
        exact fun hword => h.1 hword.1
      rw [List.cons_append, cutAt, if_neg hprefix, ih h.2]
      rfl

/-- A text is cut at each of its marks. -/
theorem pieces_append_mark {p : Char → Bool} {mark : Char} (hmark : p mark = true)
    (front rest : List Char) :
    pieces p (front ++ mark :: rest) = pieces p front ++ pieces p rest := by
  induction front with
  | nil => rw [List.nil_append, pieces_cons_of_true hmark]; rfl
  | cons c front ih =>
      cases hc : p c with
      | true => rw [List.cons_append, pieces_cons_of_true hc, pieces_cons_of_true hc, ih]; rfl
      | false =>
          rw [List.cons_append, pieces_cons_of_false hc, pieces_cons_of_false hc, ih]
          cases hfront : pieces p front with
          | nil => exact absurd hfront (pieces_ne_nil p front)
          | cons piece more => rfl

theorem pieces_of_unmarked {p : Char → Bool} (h : ∀ c ∈ text, p c = false) :
    pieces p text = [text] := by
  induction text with
  | nil => rfl
  | cons c rest ih =>
      obtain ⟨hc, hrest⟩ := List.forall_mem_cons.1 h
      rw [pieces_cons_of_false hc, ih hrest]
      rfl

/-- A front without marks belongs to the first piece. -/
theorem pieces_append_of_unmarked {p : Char → Bool} {front : List Char}
    (h : ∀ c ∈ front, p c = false) (rest : List Char) :
    pieces p (front ++ rest) = (front ++ (pieces p rest).headD []) :: (pieces p rest).tail := by
  induction front with
  | nil =>
      cases hrest : pieces p rest with
      | nil => exact absurd hrest (pieces_ne_nil p rest)
      | cons piece more => simpa using hrest
  | cons c front ih =>
      obtain ⟨hc, hfront⟩ := List.forall_mem_cons.1 h
      rw [List.cons_append, pieces_cons_of_false hc, ih hfront]
      rfl

theorem pieces_of_notMem {mark : Char} (h : mark ∉ text) : pieces (· == mark) text = [text] :=
  pieces_of_unmarked fun _ hc => beq_eq_false_iff_ne.2 fun hmark => h (hmark ▸ hc)

/-- What stands before the first mark is the first piece. -/
theorem pieces_append_of_notMem {mark : Char} {front : List Char} (h : mark ∉ front)
    (rest : List Char) :
    pieces (· == mark) (front ++ mark :: rest) = front :: pieces (· == mark) rest := by
  rw [pieces_append_mark (p := (· == mark)) (beq_self_eq_true mark), pieces_of_notMem h]
  rfl

theorem cut_append_of_notMem {mark : Char} {front : List Char} (h : mark ∉ front)
    (rest : List Char) :
    cut mark (front ++ rest) = (front ++ (cut mark rest).1, (cut mark rest).2) := by
  induction front with
  | nil => rfl
  | cons c front ih =>
      rw [List.mem_cons, not_or] at h
      rw [List.cons_append, cut, if_neg (Ne.symm h.1), ih h.2]
      rfl

theorem cut_append_mark {mark : Char} {front : List Char} (h : mark ∉ front) (rest : List Char) :
    cut mark (front ++ mark :: rest) = (front, some rest) := by
  rw [cut_append_of_notMem h, cut, if_pos rfl, List.append_nil]

theorem cut_of_notMem {mark : Char} (h : mark ∉ text) : cut mark text = (text, none) := by
  induction text with
  | nil => rfl
  | cons c rest ih =>
      rw [List.mem_cons, not_or] at h
      rw [cut, if_neg (Ne.symm h.1), ih h.2]

theorem join_cons_cons (separator piece next : List Char) (more : List (List Char)) :
    join separator (piece :: next :: more) = piece ++ separator ++ join separator (next :: more) :=
  rfl

theorem join_append_cons (separator front piece : List Char) (more : List (List Char)) :
    join separator ((front ++ piece) :: more) = front ++ join separator (piece :: more) := by
  cases more <;> simp [join]

/-- The pieces of texts joined by a mark, with more text after each mark, are those of the texts. -/
theorem pieces_join_flatMap (mark : Char) (filler piece : List Char) (more : List (List Char)) :
    pieces (· == mark) (join (mark :: filler) (piece :: more)) =
      (piece :: more.map (filler ++ ·)).flatMap (pieces (· == mark)) := by
  induction more generalizing piece with
  | nil => exact (List.flatMap_singleton _ _).symm
  | cons next more ih =>
      rw [join_cons_cons, List.append_assoc, List.cons_append,
        pieces_append_mark (p := (· == mark)) (beq_self_eq_true mark), ← join_append_cons, ih]
      rfl

/-- Texts without the mark that they are joined by are the pieces of what is joined. -/
theorem pieces_join (mark : Char) (filler : List Char) {piece : List Char}
    {more : List (List Char)} (hfiller : mark ∉ filler)
    (hpieces : ∀ text ∈ piece :: more, mark ∉ text) :
    pieces (· == mark) (join (mark :: filler) (piece :: more)) =
      piece :: more.map (filler ++ ·) := by
  have hfilled : ∀ text ∈ piece :: more.map (filler ++ ·), mark ∉ text := by
    obtain ⟨hpiece, hmore⟩ := List.forall_mem_cons.1 hpieces
    simp only [List.forall_mem_cons, List.forall_mem_map, List.mem_append, not_or]
    exact ⟨hpiece, fun text htext => ⟨hfiller, hmore text htext⟩⟩
  rw [pieces_join_flatMap, List.flatMap_congr fun text htext => pieces_of_notMem (hfilled text htext),
    List.flatMap_singleton']

theorem mem_join {separator : List Char} {texts : List (List Char)} {c : Char}
    (h : c ∈ join separator texts) : c ∈ separator ∨ ∃ text ∈ texts, c ∈ text := by
  induction texts with
  | nil => cases h
  | cons piece more ih =>
      cases more with
      | nil => exact .inr ⟨piece, List.mem_cons_self, h⟩
      | cons next more =>
          rw [join_cons_cons, List.mem_append, List.mem_append] at h
          rcases h with (h | h) | h
          · exact .inr ⟨piece, List.mem_cons_self, h⟩
          · exact .inl h
          · refine (ih h).imp_right fun ⟨other, hother, hc⟩ => ?_
            exact ⟨other, List.mem_cons_of_mem _ hother, hc⟩

theorem exists_mem_pieces {mark c : Char} (h : c ∈ text) (hc : c ≠ mark) :
    ∃ piece ∈ pieces (· == mark) text, c ∈ piece := by
  rw [← join_pieces mark text] at h
  exact (mem_join h).resolve_left fun hmark => hc (List.mem_singleton.1 hmark)

/-- A text goes on to its first character that fails, or to its end. -/
theorem span_append {p : Char → Bool} {front rest : List Char} (hfront : ∀ c ∈ front, p c = true)
    (hrest : ∀ c ∈ rest.head?, p c = false) : (front ++ rest).span p = (front, rest) := by
  rw [List.span_eq_takeWhile_dropWhile, List.takeWhile_append_of_pos hfront,
    List.dropWhile_append_of_pos hfront]
  cases rest with
  | nil => simp
  | cons c rest =>
      have hc : p c = false := hrest c rfl
      simp [hc]

/-- A word occurs in a text exactly if it stands in it. -/
theorem occursIn_iff {word : List Char} : occursIn word text = true ↔ word <:+: text := by
  unfold occursIn
  induction text with
  | nil => cases word <;> simp [cutAt]
  | cons c rest ih =>
      rw [cutAt, List.infix_cons_iff, ← ih, ← List.isPrefixOf_iff_prefix]
      split <;> simp [*]

theorem cutAt_eq_none_iff {word : List Char} : cutAt word text = none ↔ ¬ word <:+: text := by
  rw [← occursIn_iff, occursIn, Bool.not_eq_true, Option.isSome_eq_false_iff, Option.isNone_iff_eq_none]

theorem prefix_append_mark {mark : Char} {word : List Char} (h : mark ∉ word)
    (front rest : List Char) : word <+: front ++ mark :: rest ↔ word <+: front := by
  induction word generalizing front with
  | nil => exact iff_of_true List.nil_prefix List.nil_prefix
  | cons c word ih =>
      rw [List.mem_cons, not_or] at h
      cases front with
      | nil =>
          rw [List.nil_append, List.cons_prefix_cons]
          exact iff_of_false (fun hword => h.1 hword.1.symm) (by simp)
      | cons d front =>
          rw [List.cons_append, List.cons_prefix_cons, List.cons_prefix_cons, ih h.2]

/-- What does not hold the mark stands before it or after it. -/
theorem infix_append_mark {mark : Char} {word : List Char} (h : mark ∉ word)
    (front rest : List Char) :
    word <:+: front ++ mark :: rest ↔ word <:+: front ∨ word <:+: rest := by
  induction front with
  | nil =>
      have hprefix := prefix_append_mark h [] rest
      rw [List.nil_append] at hprefix ⊢
      rw [List.infix_cons_iff, hprefix, List.prefix_nil, List.infix_nil]
  | cons c front ih =>
      have hprefix := prefix_append_mark h (c :: front) rest
      rw [List.cons_append] at hprefix ⊢
      rw [List.infix_cons_iff, hprefix, ih, List.infix_cons_iff, or_assoc]

/-- What begins with a character that is not in the front stands behind it. -/
theorem infix_append_of_head_notMem {c : Char} {front : List Char} (h : c ∉ front)
    (word rest : List Char) : c :: word <:+: front ++ rest ↔ c :: word <:+: rest := by
  induction front with
  | nil => rfl
  | cons d front ih =>
      rw [List.mem_cons, not_or] at h
      rw [List.cons_append, List.infix_cons_iff, List.cons_prefix_cons, ih h.2]
      exact or_iff_right fun hword => h.1 hword.1

theorem infix_append_of_last_notMem {c : Char} {rest : List Char} (h : c ∉ rest)
    (word front : List Char) : word ++ [c] <:+: front ++ rest ↔ word ++ [c] <:+: front := by
  rw [← List.reverse_infix, ← @List.reverse_infix _ _ front, List.reverse_append,
    List.reverse_append]
  exact infix_append_of_head_notMem (by rwa [List.mem_reverse]) _ _

end Text

end PropertyGraph
