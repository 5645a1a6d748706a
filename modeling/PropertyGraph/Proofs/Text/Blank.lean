import Mathlib.Data.List.TakeWhile
import PropertyGraph.Proofs.Text.Split

/-!
Blanks. The words of a text, joined by single spaces, are the text with each run of blanks collapsed
to one space and none left at its ends.
-/

namespace PropertyGraph

namespace Text

/-- The text with one space for each run of blanks, and for none that follows a blank. -/
def collapseAfter (afterBlank : Bool) : List Char → List Char
  | [] => []
  | c :: rest =>
    if isBlank c then (if afterBlank then [] else [' ']) ++ collapseAfter true rest
    else c :: collapseAfter false rest

/-- The text with one space for each run of blanks. -/
def collapseBlanks (text : List Char) : List Char := collapseAfter false text

variable {text : List Char}

theorem words_cons_blank {c : Char} (hc : isBlank c = true) (rest : List Char) :
    words (c :: rest) = words rest := by
  rw [words, pieces_cons_of_true hc]
  rfl

theorem words_of_unblank (hne : text ≠ []) (h : ∀ c ∈ text, isBlank c = false) :
    words text = [text] := by
  rw [words, pieces_of_unmarked h]
  cases text with
  | nil => exact absurd rfl hne
  | cons c rest => rfl

/-- A blank ends the words before it. -/
theorem words_append_blank {c : Char} (hc : isBlank c = true) (front rest : List Char) :
    words (front ++ c :: rest) = words front ++ words rest := by
  rw [words, pieces_append_mark hc, List.filter_append]
  rfl

theorem words_ne_nil {c : Char} (h : c ∈ text) (hc : isBlank c = false) : words text ≠ [] := by
  induction text with
  | nil => cases h
  | cons d rest ih =>
      cases hd : isBlank d with
      | true =>
          rw [words_cons_blank hd]
          refine ih ((List.mem_cons.1 h).resolve_left ?_)
          rintro rfl
          cases hc.symm.trans hd
      | false =>
          rw [words, pieces_cons_of_false hd]
          exact List.cons_ne_nil _ _

theorem stripEnd_append (front rest : List Char) :
    stripEnd (front ++ rest) =
      if stripEnd rest = [] then stripEnd front else front ++ stripEnd rest := by
  unfold stripEnd
  rw [List.reverse_append, List.dropWhile_append]
  by_cases h : rest.reverse.dropWhile isBlank = []
  · simp [h]
  · simp [h]

theorem stripEnd_eq_self {c : Char} (hc : isBlank c = false) (front : List Char) :
    stripEnd (front ++ [c]) = front ++ [c] := by
  simp [stripEnd, hc]

theorem dropWhile_eq_self (h : ∀ c ∈ text.head?, isBlank c = false) :
    text.dropWhile isBlank = text := by
  cases text with
  | nil => rfl
  | cons c rest => exact List.dropWhile_cons_of_neg (by simp [h c rfl])

/-- A text that neither begins nor ends in a blank has none to be stripped of. -/
theorem strip_eq_self (hhead : ∀ c ∈ text.head?, isBlank c = false)
    (hlast : ∀ c ∈ text.getLast?, isBlank c = false) : strip text = text := by
  rw [← List.head?_reverse] at hlast
  rw [strip, dropWhile_eq_self hhead, stripEnd, dropWhile_eq_self hlast, List.reverse_reverse]

theorem strip_of_unblank (h : ∀ c ∈ text, isBlank c = false) : strip text = text :=
  strip_eq_self (fun c hc => h c (List.mem_of_mem_head? hc))
    fun c hc => h c (List.mem_of_mem_getLast? hc)

theorem mem_dropWhile_isBlank {c : Char} (h : c ∈ text) (hc : isBlank c = false) :
    c ∈ text.dropWhile isBlank := by
  rw [← List.takeWhile_append_dropWhile (p := isBlank) (l := text), List.mem_append] at h
  refine h.resolve_left fun hmem => ?_
  cases hc.symm.trans (List.all_eq_true.1 List.all_takeWhile c hmem)

/-- What is no blank is left when a text is stripped. -/
theorem mem_strip {c : Char} (h : c ∈ text) (hc : isBlank c = false) : c ∈ strip text := by
  rw [strip, stripEnd, List.mem_reverse]
  exact mem_dropWhile_isBlank (List.mem_reverse.2 (mem_dropWhile_isBlank h hc)) hc

theorem strip_enclosed {first last : Char} (hfirst : isBlank first = false)
    (hlast : isBlank last = false) (inner : List Char) :
    strip (first :: (inner ++ [last])) = first :: (inner ++ [last]) := by
  refine strip_eq_self (fun c hc => ?_) fun c hc => ?_
  · rw [List.head?_cons, Option.mem_some_iff] at hc
    exact hc ▸ hfirst
  · rw [← List.cons_append, List.getLast?_concat, Option.mem_some_iff] at hc
    exact hc ▸ hlast

theorem strip_cons_blank {c : Char} (hc : isBlank c = true) (rest : List Char) :
    strip (c :: rest) = strip rest := by
  rw [strip, List.dropWhile_cons_of_pos hc, ← strip]

theorem strip_append_blank {c : Char} (hc : isBlank c = true) (text : List Char) :
    strip (text ++ [c]) = strip text := by
  have hend : stripEnd [c] = [] := by simp [stripEnd, hc]
  rw [strip, strip, List.dropWhile_append]
  split
  case isTrue hblank =>
    rw [List.isEmpty_iff.1 hblank, List.dropWhile_cons_of_pos hc]
    rfl
  case isFalse => rw [stripEnd_append, if_pos hend]

theorem strip_blanks_append {blanks : List Char} (h : ∀ c ∈ blanks, isBlank c = true)
    (text : List Char) : strip (blanks ++ text) = strip text := by
  induction blanks with
  | nil => rfl
  | cons c blanks ih =>
      obtain ⟨hc, hblanks⟩ := List.forall_mem_cons.1 h
      rw [List.cons_append, strip_cons_blank hc, ih hblanks]

theorem strip_append_blanks {blanks : List Char} (h : ∀ c ∈ blanks, isBlank c = true)
    (text : List Char) : strip (text ++ blanks) = strip text := by
  induction blanks generalizing text with
  | nil => rw [List.append_nil]
  | cons c blanks ih =>
      obtain ⟨hc, hblanks⟩ := List.forall_mem_cons.1 h
      rw [List.append_cons, ih hblanks, strip_append_blank hc]

/-- A text that blanks follow ends in one. -/
theorem exists_getLast?_append_blanks {blanks : List Char} (hne : blanks ≠ [])
    (h : ∀ c ∈ blanks, isBlank c = true) (text : List Char) :
    ∃ c, (text ++ blanks).getLast? = some c ∧ isBlank c = true := by
  refine ⟨blanks.getLast hne, ?_, h _ (List.getLast_mem hne)⟩
  rw [List.getLast?_append_of_ne_nil _ hne, List.getLast?_eq_some_getLast hne]

theorem exists_stripEnd_append (text : List Char) :
    ∃ blanks, (∀ c ∈ blanks, isBlank c = true) ∧ text = stripEnd text ++ blanks := by
  refine ⟨(text.reverse.takeWhile isBlank).reverse, fun c hc => ?_, ?_⟩
  · exact List.all_eq_true.1 List.all_takeWhile c (List.mem_reverse.1 hc)
  · rw [stripEnd, ← List.reverse_append, List.takeWhile_append_dropWhile, List.reverse_reverse]

/-- A text is what it is stripped to, with blanks before and behind. -/
theorem exists_strip_append (text : List Char) :
    ∃ lead trail, (∀ c ∈ lead, isBlank c = true) ∧ (∀ c ∈ trail, isBlank c = true) ∧
      text = lead ++ (strip text ++ trail) := by
  obtain ⟨trail, htrail, hrest⟩ := exists_stripEnd_append (text.dropWhile isBlank)
  refine ⟨text.takeWhile isBlank, trail, List.all_eq_true.1 List.all_takeWhile, htrail, ?_⟩
  rw [strip, ← hrest, List.takeWhile_append_dropWhile]

theorem strip_strip (text : List Char) : strip (strip text) = strip text := by
  obtain ⟨lead, trail, hlead, htrail, htext⟩ := exists_strip_append text
  calc strip (strip text)
    _ = strip (lead ++ (strip text ++ trail)) := by
        rw [strip_blanks_append hlead, strip_append_blanks htrail]
    _ = strip text := by rw [← htext]

/-- Nothing is stripped from the end of a text that ends without a blank. -/
theorem dropWhile_eq_strip (h : ∀ c ∈ text.getLast?, isBlank c = false) :
    text.dropWhile isBlank = strip text := by
  obtain ⟨blanks, hblanks, hstrip⟩ := exists_stripEnd_append (text.dropWhile isBlank)
  cases hlast : blanks.getLast? with
  | none => rwa [List.getLast?_eq_none_iff.1 hlast, List.append_nil] at hstrip
  | some c =>
      have hsuffix : blanks <:+ text :=
        (List.IsSuffix.trans ⟨_, hstrip.symm⟩ (List.dropWhile_suffix isBlank))
      obtain ⟨front, rfl⟩ := hsuffix
      have hc := h c (List.mem_getLast?_append_of_mem_getLast? hlast)
      cases hc.symm.trans (hblanks c (List.mem_of_getLast? hlast))

/-- The text without its blanks. -/
def visible (text : List Char) : List Char := text.filter (!isBlank ·)

@[simp] theorem visible_nil : visible [] = [] := rfl

@[simp] theorem visible_append (front rest : List Char) :
    visible (front ++ rest) = visible front ++ visible rest :=
  List.filter_append _ _

theorem visible_of_blanks (h : ∀ c ∈ text, isBlank c = true) : visible text = [] :=
  List.filter_eq_nil_iff.2 fun c hc => by simp [h c hc]

theorem visible_strip (text : List Char) : visible (strip text) = visible text := by
  obtain ⟨lead, trail, hlead, htrail, htext⟩ := exists_strip_append text
  calc visible (strip text)
    _ = visible (lead ++ (strip text ++ trail)) := by
        rw [visible_append, visible_append, visible_of_blanks hlead, visible_of_blanks htrail,
          List.append_nil, List.nil_append]
    _ = visible text := by rw [← htext]

theorem strip_stripEnd (text : List Char) : strip (stripEnd text) = strip text := by
  obtain ⟨blanks, hblanks, htext⟩ := exists_stripEnd_append text
  calc strip (stripEnd text)
    _ = strip (stripEnd text ++ blanks) := (strip_append_blanks hblanks _).symm
    _ = strip text := by rw [← htext]

/-- A text that is not blank begins, after blanks, as it does when it is stripped. -/
theorem head?_dropWhile_append (h : strip text ≠ []) (rest : List Char) :
    ((text ++ rest).dropWhile isBlank).head? = (strip text).head? := by
  have hne : text.dropWhile isBlank ≠ [] := by
    intro hnil
    rw [strip, hnil] at h
    exact h rfl
  obtain ⟨blanks, hblanks⟩ := stripEnd_isPrefix (text.dropWhile isBlank)
  have hstrip : strip text ++ blanks = text.dropWhile isBlank := hblanks
  rw [List.dropWhile_append, if_neg (by simpa using hne), ← hstrip, List.append_assoc,
    List.head?_append_of_ne_nil _ h]

theorem isBlank_head_strip (h : strip text ≠ []) : isBlank ((strip text).head h) = false := by
  have hhead := head?_dropWhile_append h []
  rw [List.append_nil, List.head?_eq_some_head h] at hhead
  have hfails := List.head?_dropWhile_not isBlank text
  rw [hhead] at hfails
  simpa using hfails

theorem isBlank_getLast?_strip {c : Char} (h : c ∈ (strip text).getLast?) : isBlank c = false := by
  rw [strip, stripEnd, List.getLast?_reverse] at h
  have hfails := List.head?_dropWhile_not isBlank (text.dropWhile isBlank).reverse
  rw [h] at hfails
  simpa using hfails

theorem dropWhile_of_strip_eq_nil (h : strip text = []) : text.dropWhile isBlank = [] := by
  rw [List.dropWhile_eq_nil_iff]
  intro c hc
  refine Bool.of_not_eq_false fun hblank => ?_
  exact List.ne_nil_of_mem (mem_strip hc hblank) h

theorem mem_of_mem_collapseAfter {afterBlank : Bool} {c : Char}
    (h : c ∈ collapseAfter afterBlank text) : c = ' ' ∨ c ∈ text ∧ isBlank c = false := by
  induction text generalizing afterBlank with
  | nil => cases h
  | cons d rest ih =>
      rw [collapseAfter] at h
      split at h
      case isTrue =>
        rcases List.mem_append.1 h with h | h
        · split at h
          · cases h
          · exact .inl (List.mem_singleton.1 h)
        · exact (ih h).imp_right fun ⟨hmem, hc⟩ => ⟨List.mem_cons_of_mem _ hmem, hc⟩
      case isFalse hd =>
        rcases List.mem_cons.1 h with rfl | h
        · exact .inr ⟨List.mem_cons_self, by simpa using hd⟩
        · exact (ih h).imp_right fun ⟨hmem, hc⟩ => ⟨List.mem_cons_of_mem _ hmem, hc⟩

theorem collapseAfter_cons_blank {c : Char} (hc : isBlank c = true) (afterBlank : Bool)
    (rest : List Char) :
    collapseAfter afterBlank (c :: rest) =
      (if afterBlank then [] else [' ']) ++ collapseAfter true rest := by
  rw [collapseAfter, if_pos hc]

theorem collapseAfter_cons_unblank {c : Char} (hc : isBlank c = false) (afterBlank : Bool)
    (rest : List Char) :
    collapseAfter afterBlank (c :: rest) = c :: collapseAfter false rest := by
  rw [collapseAfter, if_neg (by simp [hc])]

/-- A word that has begun goes on with the first piece of what is left; the other words follow it. -/
theorem stripEnd_collapseAfter (text : List Char) :
    (∀ word c, isBlank c = false →
      stripEnd (word ++ c :: collapseAfter false text) =
        join [' '] ((word ++ c :: (pieces isBlank text).headD []) ::
          (pieces isBlank text).tail.filter (!·.isEmpty))) ∧
      stripEnd (collapseAfter true text) = join [' '] (words text) := by
  -- The two halves need each other: blanks end a word, and what is no blank begins one.
  induction text with
  | nil => exact ⟨fun word c hc => stripEnd_eq_self hc word, rfl⟩
  | cons d rest ih =>
      obtain ⟨hbegun, hwords⟩ := ih
      cases hd : isBlank d with
      | true =>
          refine ⟨fun word c hc => ?_, ?_⟩
          · rw [collapseAfter_cons_blank hd, pieces_cons_of_true hd, List.append_cons,
              stripEnd_append, stripEnd_append, hwords]
            have hspace : stripEnd [' '] = [] := by decide
            simp only [Bool.false_eq_true, if_false, List.headD_cons, List.tail_cons]
            show _ = join [' '] ((word ++ [c]) :: words rest)
            cases hrest : words rest with
            | nil => simp [hspace, join, stripEnd_eq_self hc]
            | cons next more =>
                have hne : join [' '] (next :: more) ≠ [] := by
                  have hnext : next ≠ [] := ne_nil_of_mem_words (hrest ▸ List.mem_cons_self)
                  cases more <;> simp [join, hnext]
                simp [hne, join]
          · rw [collapseAfter_cons_blank hd, words_cons_blank hd]
            exact hwords
      | false =>
          refine ⟨fun word c hc => ?_, ?_⟩
          · rw [collapseAfter_cons_unblank hd, pieces_cons_of_false hd]
            simpa using hbegun (word ++ [c]) d hd
          · rw [collapseAfter_cons_unblank hd, words, pieces_cons_of_false hd]
            simpa using hbegun [] d hd

theorem dropWhile_collapseAfter (afterBlank : Bool) (text : List Char) :
    (collapseAfter afterBlank text).dropWhile isBlank = collapseAfter true text := by
  induction text generalizing afterBlank with
  | nil => rfl
  | cons c rest ih =>
      cases hc : isBlank c with
      | true =>
          rw [collapseAfter_cons_blank hc, collapseAfter_cons_blank hc]
          cases afterBlank with
          | true => exact ih true
          | false => exact (List.dropWhile_cons_of_pos isBlank_space).trans (ih true)
      | false =>
          rw [collapseAfter_cons_unblank hc, collapseAfter_cons_unblank hc]
          exact List.dropWhile_cons_of_neg (by simp [hc])

/-- The words of a text on one line: its blanks collapsed, and none at its ends. -/
theorem join_words (text : List Char) :
    join [' '] (words text) = strip (collapseBlanks text) := by
  rw [strip, collapseBlanks, dropWhile_collapseAfter]
  exact (stripEnd_collapseAfter text).2.symm

end Text

end PropertyGraph
