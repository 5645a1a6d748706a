import PropertyGraph.Proofs.Calendar.Clock
import PropertyGraph.Proofs.Language.Scalar

/-!
A comma behind a literal. It is passed over, but not the blanks before it: those become part of the
literal, which then is a text where it was a number, a truth value or a list, and no time where it
was one.
-/

namespace PropertyGraph

open Text

namespace Literal

/-- One result, or faults of one kind: what the messages show may differ. -/
inductive Alike : Except Fault Value → Except Fault Value → Prop
  | same (result : Except Fault Value) : Alike result result
  | date (text other : String) : Alike (.error (.invalidDate text)) (.error (.invalidDate other))
  | oversized (e other : OversizedInteger) :
      Alike (.error (.oversizedInteger e)) (.error (.oversizedInteger other))

namespace Alike

variable {result : Except Fault Value}

theorem eq_ok {value : Value} (h : Alike (.ok value) result) : result = .ok value := by
  cases h
  rfl

theorem exists_date {text : String} (h : Alike (.error (.invalidDate text)) result) :
    ∃ other, result = .error (.invalidDate other) := by
  cases h with
  | same => exact ⟨text, rfl⟩
  | date _ other => exact ⟨other, rfl⟩

end Alike

/-- A comma behind the text leaves what is read from it alike: no blank stands before the comma, or
nothing but blanks does; or a number does, with a line feed; or what stands there looks like a date
and is none. -/
inductive Harmless (text : List Char) : Prop
  | adjacent (h : ∀ c ∈ text.getLast?, isBlank c = false)
  | blank (h : strip text = [])
  | newline (hnumber : (numberParts? (strip text)).isSome = true)
      (h : text.dropWhile isBlank = strip text ++ ['\n'])
  | date (hdate : Iso.looksLikeDate (strip text) = true) {literal : String}
      (h : read text = .error (.invalidDate literal))

variable {text blanks : List Char}

/-- The comma is taken off, and the blanks behind it, but not those before it. -/
theorem core_append_comma (hblanks : ∀ c ∈ blanks, isBlank c = true) (text : List Char) :
    core (text ++ ',' :: blanks) = text.dropWhile isBlank := by
  have hcomma : isBlank ',' = false := by decide
  have hfront : (text ++ [',']).dropWhile isBlank = text.dropWhile isBlank ++ [','] := by
    rw [List.dropWhile_append]
    split
    case isTrue h => rw [List.isEmpty_iff.1 h]; rfl
    case isFalse => rfl
  rw [core, List.append_cons, strip_append_blanks hblanks, strip, hfront, stripEnd_eq_self hcomma,
    dropTrailingComma, List.getLast?_concat, if_pos rfl, List.dropLast_concat]

section

variable (hne : blanks ≠ []) (hblanks : ∀ c ∈ blanks, isBlank c = true)

include hne hblanks

theorem ne_of_append_blanks {word : List Char} (h : word.getLast?.any isBlank = false) :
    text ++ blanks ≠ word := by
  rintro rfl
  obtain ⟨c, hc, hblank⟩ := exists_getLast?_append_blanks hne hblanks text
  rw [hc] at h
  cases h.symm.trans hblank

theorem bracketed?_append_blanks : bracketed? (text ++ blanks) = none := by
  refine Option.eq_none_iff_forall_ne_some.2 fun inner h => ?_
  refine ne_of_append_blanks hne hblanks ?_ (eq_of_bracketed? h)
  rw [← List.cons_append, List.getLast?_concat]
  decide

theorem numberParts?_append_blanks : numberParts? (text ++ blanks) = none := by
  obtain ⟨c, hc, hblank⟩ := exists_getLast?_append_blanks hne hblanks text
  refine Option.not_isSome_iff_eq_none.1 fun h => ?_
  cases hblank.symm.trans (isBlank_of_isDigit (isDigit_of_numberParts? h hc))

/-- Of blanks that are not a line feed only, there are some left if a line feed is dropped. -/
theorem exists_dropFinalNewline_append_blanks (hnewline : blanks ≠ ['\n']) (text : List Char) :
    ∃ more ≠ [], (∀ c ∈ more, isBlank c = true) ∧
      dropFinalNewline (text ++ blanks) = text ++ more := by
  unfold dropFinalNewline
  split
  case isTrue hlast =>
    refine ⟨blanks.dropLast, ?_, ?_, ?_⟩
    · intro hnil
      rw [List.getLast?_append_of_ne_nil _ hne] at hlast
      refine hnewline ?_
      rw [← List.dropLast_append_getLast? _ hlast, hnil, List.nil_append]
    · exact fun c hc => hblanks c (List.mem_of_mem_dropLast hc)
    · exact List.dropLast_append_of_ne_nil hne
  case isFalse => exact ⟨blanks, hne, hblanks, rfl⟩

end

/-- The text without a quote at its start. -/
def dropOpening (text : List Char) : List Char :=
  match text with
  | c :: rest => if isQuote c then rest else text
  | [] => []

/-- The text without a quote at its end, where a line feed may follow it. -/
def dropClosing (text : List Char) : List Char :=
  let closing := dropFinalNewline text
  if closing.getLast?.any isQuote then closing.dropLast ++ text.drop closing.length else text

theorem unquote_eq (text : List Char) : unquote text = dropClosing (dropOpening text) := rfl

theorem dropOpening_append (hne : text ≠ []) (rest : List Char) :
    dropOpening (text ++ rest) = dropOpening text ++ rest := by
  cases text with
  | nil => exact absurd rfl hne
  | cons c text =>
      simp only [List.cons_append, dropOpening]
      split <;> rfl

theorem dropOpening_isSuffix (text : List Char) : dropOpening text <:+ text := by
  unfold dropOpening
  split
  · split
    · exact List.suffix_cons _ _
    · exact List.suffix_rfl
  · exact List.suffix_rfl

theorem isQuote_of_isBlank {c : Char} (h : isBlank c = true) : isQuote c = false := by
  rw [isQuote, Bool.or_eq_false_iff, beq_eq_false_iff_ne, beq_eq_false_iff_ne]
  exact ⟨by rintro rfl; exact absurd h (by decide), by rintro rfl; exact absurd h (by decide)⟩

/-- Nothing but a quote is taken off. -/
theorem dropClosing_of_unblank (hlast : ∀ c ∈ text.getLast?, isBlank c = false) :
    dropClosing text = if text.getLast?.any isQuote then text.dropLast else text := by
  simp only [dropClosing, dropFinalNewline_of_unblank hlast, List.drop_length, List.append_nil]

theorem dropClosing_append_newline (hlast : ∀ c ∈ text.getLast?, isBlank c = false) :
    dropClosing (text ++ ['\n']) = dropClosing text ++ ['\n'] := by
  rw [dropClosing_of_unblank hlast]
  simp only [dropClosing, dropFinalNewline_append_newline, List.drop_left]
  split <;> rfl

section

variable (hne : blanks ≠ []) (hblanks : ∀ c ∈ blanks, isBlank c = true)

include hne hblanks

theorem dropClosing_append_blanks (hnewline : blanks ≠ ['\n']) (text : List Char) :
    dropClosing (text ++ blanks) = text ++ blanks := by
  obtain ⟨more, hmore, hmoreBlank, hdrop⟩ :=
    exists_dropFinalNewline_append_blanks hne hblanks hnewline text
  obtain ⟨c, hc, hblank⟩ := exists_getLast?_append_blanks hmore hmoreBlank text
  have hquote : (text ++ more).getLast?.any isQuote = false := by
    rw [hc]
    exact isQuote_of_isBlank hblank
  simp only [dropClosing, hdrop, hquote]
  rfl

/-- A quote before blanks is taken off with nothing more than it would be without them. -/
theorem length_dropClosing_lt (hlast : ∀ c ∈ text.getLast?, isBlank c = false) :
    (dropClosing text).length < (dropClosing (text ++ blanks)).length := by
  have hpos : 0 < blanks.length := List.length_pos_of_ne_nil hne
  by_cases hnewline : blanks = ['\n']
  · rw [hnewline, dropClosing_append_newline hlast, List.length_append]
    exact Nat.lt_succ_self _
  · have hle : (dropClosing text).length ≤ text.length := by
      rw [dropClosing_of_unblank hlast]
      split
      · rw [List.length_dropLast]
        omega
      · exact Nat.le_refl _
    rw [dropClosing_append_blanks hne hblanks hnewline, List.length_append]
    omega

/-- With blanks behind it, a text has another value. -/
theorem unquote_append_blanks_ne (hlast : ∀ c ∈ text.getLast?, isBlank c = false)
    (htext : text ≠ []) : unquote (text ++ blanks) ≠ unquote text := by
  have hopening : ∀ c ∈ (dropOpening text).getLast?, isBlank c = false := by
    intro c hc
    obtain ⟨front, hfront⟩ := dropOpening_isSuffix text
    refine hlast c ?_
    rw [← hfront]
    exact List.mem_getLast?_append_of_mem_getLast? hc
  intro heq
  rw [unquote_eq, unquote_eq, dropOpening_append htext] at heq
  exact absurd (congrArg List.length heq).symm (length_dropClosing_lt hne hblanks hopening).ne

end

/-- A line feed behind a number is passed over. -/
theorem readScalar_append_newline (hlast : ∀ c ∈ text.getLast?, isBlank c = false)
    (h : (numberParts? text).isSome = true) : readScalar (text ++ ['\n']) = readScalar text := by
  obtain ⟨⟨negative, whole, fraction?⟩, hparts⟩ := Option.isSome_iff_exists.1 h
  have hnewline : numberParts? (dropFinalNewline (text ++ ['\n'])) =
      some (negative, whole, fraction?) := by
    rw [dropFinalNewline_append_newline, hparts]
  have htext : numberParts? (dropFinalNewline text) = some (negative, whole, fraction?) := by
    rw [dropFinalNewline_of_unblank hlast, hparts]
  rw [readScalar_of_number hnewline, readScalar_of_number htext]

/-- With blanks behind it a literal is a text, or is read as a time. -/
theorem readScalar_append_blanks (hne : blanks ≠ []) (hblanks : ∀ c ∈ blanks, isBlank c = true)
    (hnumber : (numberParts? text).isSome = true → blanks ≠ ['\n']) :
    readScalar (text ++ blanks) =
      if Iso.looksLikeDate text then readDate (text ++ blanks)
      else .ok (.str (String.ofList (unquote (text ++ blanks)))) := by
  have hparts : numberParts? (dropFinalNewline (text ++ blanks)) = none := by
    by_cases hnewline : blanks = ['\n']
    · rw [hnewline, dropFinalNewline_append_newline]
      exact Option.not_isSome_iff_eq_none.1 fun h => hnumber h hnewline
    · obtain ⟨more, hmore, hmoreBlank, hdrop⟩ :=
        exists_dropFinalNewline_append_blanks hne hblanks hnewline text
      rw [hdrop, numberParts?_append_blanks hmore hmoreBlank]
  have htrue : text ++ blanks ≠ "true".toList := ne_of_append_blanks hne hblanks (by decide)
  have hfalse : text ++ blanks ≠ "false".toList := ne_of_append_blanks hne hblanks (by decide)
  rw [readScalar_of_no_number htrue hfalse hparts, Iso.looksLikeDate_append_blanks hblanks]

theorem readDate_append_blanks (hne : blanks ≠ []) (hblanks : ∀ c ∈ blanks, isBlank c = true)
    (hdate : Iso.looksLikeDate text = true) (hnull : '\x00' ∉ text) :
    readDate (text ++ blanks) = .error (.invalidDate (String.ofList (text ++ blanks))) := by
  have hpos : 0 < blanks.length := List.length_pos_of_ne_nil hne
  have hlength : (text ++ blanks).length ≠ 10 := by
    have hten := Iso.length_of_looksLikeDate hdate
    rw [List.length_append]
    omega
  simp only [readDate, if_neg hlength, Iso.dateTime_append_blanks hne hblanks hnull, Option.map_none]

theorem harmless_of_dropWhile (h : text.dropWhile isBlank = strip text) : Harmless text := by
  by_cases hblank : strip text = []
  · exact .blank hblank
  · refine .adjacent fun c hc => @isBlank_getLast?_strip text c ?_
    obtain ⟨front, hfront⟩ := List.dropWhile_suffix (l := text) isBlank
    rw [h] at hfront
    rwa [← hfront, List.getLast?_append_of_ne_nil _ hblank] at hc

/-- Blanks that are left behind a text stand behind something else. -/
theorem strip_ne_nil (h : text.dropWhile isBlank = strip text ++ blanks) (hne : blanks ≠ []) :
    strip text ≠ [] := by
  intro hnil
  rw [dropWhile_of_strip_eq_nil hnil] at h
  exact hne (List.append_eq_nil_iff.1 h.symm).2

/-- Past the two cases in which the same is read, a comma is harmless behind what is neither a date
nor a time. -/
theorem harmless_iff_of_spaced (hstrip : text.dropWhile isBlank = strip text ++ blanks)
    (hne : blanks ≠ []) (hnumber : (numberParts? (strip text)).isSome = true → blanks ≠ ['\n']) :
    Harmless text ↔ Iso.looksLikeDate (strip text) = true ∧
      ∃ literal, read text = .error (.invalidDate literal) := by
  constructor
  · intro h
    cases h with
    | adjacent hlast =>
        rw [dropWhile_eq_strip hlast, List.self_eq_append_right] at hstrip
        exact absurd hstrip hne
    | blank hblank => exact absurd hblank (strip_ne_nil hstrip hne)
    | newline hparts hnewline =>
        exact absurd (List.append_cancel_left (hstrip.symm.trans hnewline)) (hnumber hparts)
    | date hdate hread => exact ⟨hdate, _, hread⟩
  · rintro ⟨hdate, literal, hread⟩
    exact .date hdate hread

section

variable (hcomma : (strip text).getLast? ≠ some ',') (hblanks : ∀ c ∈ blanks, isBlank c = true)

include hcomma hblanks

theorem read_append_comma_of_dropWhile (h : text.dropWhile isBlank = strip text) :
    read (text ++ ',' :: blanks) = read text := by
  refine read_congr ?_
  rw [core_append_comma hblanks, h, core_of_getLast? hcomma]

/-- Without blanks before the comma the literal is read as it is without the comma. -/
theorem read_append_comma_of_unspaced (h : ∀ c ∈ text.getLast?, isBlank c = false) :
    read (text ++ ',' :: blanks) = read text :=
  read_append_comma_of_dropWhile hcomma hblanks (dropWhile_eq_strip h)

/-- The comma leaves the literal alike exactly where it is harmless. -/
theorem alike_iff_harmless (hnull : '\x00' ∉ text) :
    Alike (read (text ++ ',' :: blanks)) (read text) ↔ Harmless text := by
  obtain ⟨spaces, hspaces, hstrip⟩ := exists_stripEnd_append (text.dropWhile isBlank)
  have hstrip : text.dropWhile isBlank = strip text ++ spaces := hstrip
  have hlast : ∀ c ∈ (strip text).getLast?, isBlank c = false := fun _ => isBlank_getLast?_strip
  have hcore : core text = strip text := core_of_getLast? hcomma
  by_cases hne : spaces = []
  · rw [hne, List.append_nil] at hstrip
    rw [read_append_comma_of_dropWhile hcomma hblanks hstrip]
    exact iff_of_true (.same _) (harmless_of_dropWhile hstrip)
  have hread : read (text ++ ',' :: blanks) = readScalar (strip text ++ spaces) := by
    have hcore : core (text ++ ',' :: blanks) = strip text ++ spaces :=
      (core_append_comma hblanks text).trans hstrip
    rw [read_of_not_bracketed? (hcore ▸ bracketed?_append_blanks hne hspaces), hcore]
  by_cases hnumber : (numberParts? (strip text)).isSome = true ∧ spaces = ['\n']
  · obtain ⟨hparts, rfl⟩ := hnumber
    have hscalar : read text = readScalar (strip text) := by
      rw [read_of_not_bracketed? (hcore ▸ bracketed?_of_numberParts? hparts), hcore]
    rw [hread, readScalar_append_newline hlast hparts, hscalar]
    exact iff_of_true (.same _) (.newline hparts hstrip)
  have hnumber : (numberParts? (strip text)).isSome = true → spaces ≠ ['\n'] := not_and.1 hnumber
  rw [hread, readScalar_append_blanks hne hspaces hnumber,
    harmless_iff_of_spaced hstrip hne hnumber]
  split
  case isTrue hdate =>
    rw [readDate_append_blanks hne hspaces hdate fun hmem => hnull ((strip_isInfix text).subset hmem)]
    constructor
    · exact fun h => ⟨hdate, h.exists_date⟩
    · rintro ⟨-, literal, hliteral⟩
      exact hliteral ▸ .date _ literal
  case isFalse hdate =>
    refine iff_of_false (fun h => ?_) fun h => hdate h.1
    -- Two texts would be the same, of which one has the blanks at its end.
    have hsame := String.ofList_injective (eq_unquote_of_read h.eq_ok)
    rw [hcore] at hsame
    exact unquote_append_blanks_ne hne hspaces hlast (strip_ne_nil hstrip hne) hsame

end

/-- A comma behind a literal, with a gap before it and blanks behind. The literal is read as it is
without the comma if there are no blanks before it, and otherwise only where they are harmless. -/
theorem read_append_comma {gap after : List Char} (hcomma : (strip text).getLast? ≠ some ',')
    (hgap : ∀ c ∈ gap, isBlank c = true) (hafter : ∀ c ∈ after, isBlank c = true) :
    ((∀ c ∈ (text ++ gap).getLast?, isBlank c = false) →
        read (text ++ gap ++ ',' :: after) = read text) ∧
      ('\x00' ∉ text →
        (Alike (read (text ++ gap ++ ',' :: after)) (read text) ↔ Harmless (text ++ gap))) := by
  have hstrip : strip (text ++ gap) = strip text := strip_append_blanks hgap text
  have hread : read (text ++ gap) = read text := read_congr_of_strip hstrip
  have hcomma : (strip (text ++ gap)).getLast? ≠ some ',' := hstrip ▸ hcomma
  rw [← hread]
  refine ⟨read_append_comma_of_unspaced hcomma hafter, fun hnull => ?_⟩
  refine alike_iff_harmless hcomma hafter ?_
  rw [List.mem_append]
  rintro (hmem | hmem)
  · exact hnull hmem
  · exact absurd (hgap _ hmem) (by decide)

/-- A list is read with a comma right behind it. With a space between them it is read as a text. -/
theorem read_append_comma_of_list :
    let text := "[1, 2]".toList
    (strip text).getLast? ≠ some ',' ∧ read "[1, 2], ".toList = read text ∧
      ¬ Harmless "[1, 2] ".toList ∧ ¬ Alike (read "[1, 2] ,".toList) (read text) := by
  intro text
  have hcomma : (strip text).getLast? ≠ some ',' := by decide
  have hspaces : ∀ c ∈ [' '], isBlank c = true := List.forall_mem_singleton.2 isBlank_space
  have hnone : ∀ c ∈ ([] : List Char), isBlank c = true := nofun
  have hharm : ¬ Harmless "[1, 2] ".toList := by
    intro h
    cases h with
    | adjacent hlast => exact absurd (hlast ' ' rfl) (by decide)
    | blank hblank => exact absurd hblank (by decide)
    | newline hnumber _ => exact absurd hnumber (by decide)
    | date hdate _ => exact absurd hdate (by decide)
  have hadjacent : ∀ c ∈ (text ++ []).getLast?, isBlank c = false := by
    rintro _ ⟨⟩
    decide
  refine ⟨hcomma, (read_append_comma hcomma hnone hspaces).1 hadjacent, hharm, fun h => ?_⟩
  exact hharm (((read_append_comma hcomma hspaces hnone).2 (by decide)).1 h)

/-- A space between a number and a comma makes it a text. -/
theorem number_spaced_from_comma :
    read "5 ,".toList = .ok (.str "5 ") ∧ read "5".toList = .ok (.int 5) ∧
      ¬ Alike (read "5 ,".toList) (read "5".toList) := by
  have hspaced : read "5 ,".toList = .ok (.str "5 ") := read_of_not_bracketed? rfl
  have hnumber : read "5".toList = .ok (.int 5) := read_of_not_bracketed? rfl
  refine ⟨hspaced, hnumber, fun h => ?_⟩
  rw [hspaced, hnumber] at h
  cases h

end Literal

end PropertyGraph
