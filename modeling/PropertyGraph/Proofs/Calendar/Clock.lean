import PropertyGraph.Calendar.Iso
import PropertyGraph.Proofs.Text.Word

/-!
Where a time ends. What is read as a time ends with a digit, or with the `Z` of universal time,
unless a null character cuts it short. So no time is read from a text with blanks behind it.
-/

namespace PropertyGraph

open Text

namespace Iso

/-- The text ends with a digit of ASCII or with the mark of universal time. -/
def EndsAsTime (text : List Char) : Prop :=
  ∃ c ∈ text.getLast?, (asciiDigitValue? c).isSome = true ∨ c = 'Z'

variable {text rest : List Char}

theorem EndsAsTime.of_suffix (h : EndsAsTime rest) (hsuffix : rest <:+ text) : EndsAsTime text := by
  obtain ⟨front, rfl⟩ := hsuffix
  obtain ⟨c, hlast, hc⟩ := h
  exact ⟨c, List.mem_getLast?_append_of_mem_getLast? hlast, hc⟩

theorem endsAsTime_of_digits (hne : text ≠ [])
    (h : ∀ c ∈ text, (asciiDigitValue? c).isSome = true) : EndsAsTime text :=
  ⟨_, List.getLast?_eq_some_getLast hne, .inl (h _ (List.getLast_mem hne))⟩

/-- Without null characters nothing but the end of the text counts as its end. -/
theorem eq_nil_of_atEnd (h : atEnd text = true) (hnull : '\x00' ∉ text) : text = [] := by
  cases text with
  | nil => rfl
  | cons c rest =>
      have hc : c = '\x00' := by simpa [atEnd] using h
      exact absurd (hc ▸ List.mem_cons_self) hnull

theorem digits_of_fixedNumber {count value n : Nat}
    (h : fixedNumber count value text = some (n, rest)) :
    ∃ digits, digits.length = count ∧ (∀ c ∈ digits, (asciiDigitValue? c).isSome = true) ∧
      text = digits ++ rest := by
  induction count generalizing value text with
  | zero =>
      obtain ⟨-, rfl⟩ := Prod.mk.inj (Option.some.inj h)
      exact ⟨[], rfl, nofun, rfl⟩
  | succ count ih =>
      cases text with
      | nil => cases h
      | cons c text =>
          obtain ⟨digit, hc, h⟩ := Option.bind_eq_some_iff.1 h
          obtain ⟨digits, hlength, hdigits, rfl⟩ := ih h
          refine ⟨c :: digits, by rw [List.length_cons, hlength], ?_, rfl⟩
          exact List.forall_mem_cons.2 ⟨by rw [hc]; rfl, hdigits⟩

theorem suffix_of_fixedNumber {count value n : Nat}
    (h : fixedNumber count value text = some (n, rest)) : rest <:+ text := by
  obtain ⟨digits, -, -, htext⟩ := digits_of_fixedNumber h
  exact ⟨digits, htext.symm⟩

/-- A fraction that nothing follows is made of digits. -/
theorem digits_of_fraction {micro : Nat} (h : fraction text [] = some (micro, true))
    (hnull : '\x00' ∉ text) : ∀ c ∈ text, (asciiDigitValue? c).isSome = true := by
  obtain ⟨⟨value, rest⟩, hvalue, h⟩ := Option.bind_eq_some_iff.1 h
  obtain ⟨digits, hlength, hdigits, htext⟩ := digits_of_fixedNumber hvalue
  have hend := (Prod.mk.inj (Option.some.inj h)).2
  have hdrop : text.drop (min text.length 6) = rest := by
    rw [← hlength, htext, List.drop_left]
  rw [hdrop, List.append_nil] at hend
  have hnil := eq_nil_of_atEnd hend fun hmem =>
    hnull (htext ▸ List.mem_append_right _ (List.dropWhile_subset _ hmem))
  rw [List.dropWhile_eq_nil_iff] at hnil
  rw [htext]
  exact List.forall_mem_append.2 ⟨hdigits, hnil⟩

theorem end_of_fraction {micro : Nat} (h : fraction text [] = some (micro, true))
    (hne : text ≠ []) (hnull : '\x00' ∉ text) : EndsAsTime text :=
  endsAsTime_of_digits hne (digits_of_fraction h hnull)

/-- A mark of one byte does not stand alone in two bytes. -/
theorem drop_one_ne_nil (hlong : ¬byteCount text ≤ 1) (hmark : (text.headD '\x00').utf8Size = 1) :
    text.drop 1 ≠ [] := by
  cases text with
  | nil => exact absurd (Nat.zero_le 1) hlong
  | cons c rest =>
      rintro (rfl : rest = [])
      exact hlong hmark.le

/-- The parts are read from the front, so that the last of them ends the text. -/
theorem end_of_clockParts {left : Nat} {colons? : Option Bool} {parts all : List Nat}
    {micro : Nat} (h : clockParts [] left colons? parts text = some (all, micro, true))
    (hne : text ≠ []) (hnull : '\x00' ∉ text) : EndsAsTime text := by
  induction left generalizing colons? parts text with
  | zero =>
      obtain ⟨⟨found, whole⟩, hfraction, heq⟩ := Option.map_eq_some_iff.1 h
      obtain ⟨-, rfl, rfl⟩ : parts = all ∧ found = micro ∧ whole = true := by simpa using heq
      exact end_of_fraction hfraction hne hnull
  | succ left ih =>
      obtain ⟨⟨part, rest⟩, hpart, hnext⟩ := Option.bind_eq_some_iff.1 h
      obtain ⟨digits, -, hdigits, rfl⟩ := digits_of_fixedNumber hpart
      have hnull : '\x00' ∉ rest := fun hmem => hnull (List.mem_append_right _ hmem)
      simp only [List.append_nil] at hnext
      split at hnext
      case isTrue =>
        -- Too little follows for a further part. It would have to be a null character.
        have hend : atEnd rest = true := congrArg (fun found => found.2.2) (Option.some.inj hnext)
        obtain rfl := eq_nil_of_atEnd hend hnull
        rw [List.append_nil] at hne ⊢
        exact endsAsTime_of_digits hne hdigits
      case isFalse hlong =>
        have hdrop : '\x00' ∉ rest.drop 1 := fun hmem => hnull (List.mem_of_mem_drop hmem)
        have hrest : rest.drop 1 <:+ rest := List.drop_suffix 1 rest
        refine EndsAsTime.of_suffix ?_ (List.suffix_append digits rest)
        split at hnext
        case isTrue hcolon =>
          have hmark : rest.headD '\x00' = ':' := by
            rw [Bool.and_eq_true] at hcolon
            exact eq_of_beq hcolon.2
          have hmore := drop_one_ne_nil hlong (by rw [hmark]; rfl)
          exact (ih hnext hmore hdrop).of_suffix hrest
        case isFalse =>
          split at hnext
          case isTrue hpoint =>
            obtain ⟨⟨found, whole⟩, hfraction, heq⟩ := Option.bind_eq_some_iff.1 hnext
            obtain ⟨-, rfl, rfl⟩ : _ ∧ found = micro ∧ whole = true := by simpa using heq
            have hmore := drop_one_ne_nil hlong (by rcases hpoint with h | h <;> rw [h] <;> rfl)
            exact (end_of_fraction hfraction hmore hdrop).of_suffix hrest
          case isFalse =>
            split at hnext
            · refine ih hnext ?_ hnull
              rintro rfl
              exact hlong (Nat.zero_le 1)
            · cases hnext

theorem end_of_clock {c : Clock} (h : clock text [] = some (c, true)) (hnull : '\x00' ∉ text) :
    EndsAsTime text := by
  obtain ⟨⟨parts, micro, whole⟩, hparts, h⟩ := Option.bind_eq_some_iff.1 h
  obtain ⟨-, rfl⟩ := Prod.mk.inj (Option.some.inj h)
  refine end_of_clockParts hparts ?_ hnull
  rintro rfl
  cases hparts

theorem end_of_offset {o : UtcOffset} (h : offset text = some o) (hnull : '\x00' ∉ text) :
    EndsAsTime text := by
  unfold offset at h
  split at h
  · next rest =>
    obtain ⟨hend, -⟩ := Option.ite_none_right_eq_some.1 h
    obtain rfl := eq_nil_of_atEnd hend (List.not_mem_of_not_mem_cons hnull)
    exact ⟨'Z', rfl, .inr rfl⟩
  · next mark rest _ =>
    obtain ⟨⟨c, whole⟩, hclock, h⟩ := Option.bind_eq_some_iff.1 h
    obtain ⟨rfl, -⟩ := Option.ite_none_right_eq_some.1 h
    have hend := end_of_clock hclock (List.not_mem_of_not_mem_cons hnull)
    exact hend.of_suffix (List.suffix_cons mark rest)
  · cases h

theorem end_of_timeOn {date : Date} {t : DateTime} (h : timeOn date text = some t)
    (hnull : '\x00' ∉ text) : EndsAsTime text := by
  unfold timeOn at h
  generalize hspan : (text.span fun c => !(c == '+' || c == '-' || c == 'Z')) = parts at h
  obtain ⟨front, rest⟩ := parts
  have htext : front ++ rest = text := by
    rw [List.span_eq_takeWhile_dropWhile] at hspan
    obtain ⟨rfl, rfl⟩ := Prod.mk.inj hspan
    exact List.takeWhile_append_dropWhile
  obtain ⟨⟨c, whole⟩, hclock, hnext⟩ := Option.bind_eq_some_iff.1 h
  cases rest with
  | nil =>
      obtain rfl : front = text := (List.append_nil front).symm.trans htext
      obtain ⟨rfl, -⟩ : whole = true ∧ _ := Option.ite_none_right_eq_some.1 hnext
      exact end_of_clock hclock hnull
  | cons mark more =>
      obtain ⟨o, hoffset, -⟩ := Option.bind_eq_some_iff.1 hnext
      have hsuffix : mark :: more <:+ text := ⟨front, htext⟩
      exact (end_of_offset hoffset fun hmem => hnull (hsuffix.subset hmem)).of_suffix hsuffix

theorem suffix_of_date {d : Date} (h : Iso.date text = some (d, rest)) : rest <:+ text := by
  unfold Iso.date at h
  obtain ⟨⟨year, first⟩, hyear, hmonths⟩ := Option.bind_eq_some_iff.1 h
  simp only at hmonths
  split at hmonths
  · next second =>
    obtain ⟨⟨month, third⟩, hmonth, hdays⟩ := Option.bind_eq_some_iff.1 hmonths
    simp only at hdays
    split at hdays
    · next fourth =>
      obtain ⟨⟨day, last⟩, hday, hvalid⟩ := Option.bind_eq_some_iff.1 hdays
      obtain ⟨found, -, hfound⟩ := Option.bind_eq_some_iff.1 hvalid
      obtain ⟨-, rfl⟩ := Prod.mk.inj (Option.some.inj hfound)
      calc last
        _ <:+ fourth := suffix_of_fixedNumber hday
        _ <:+ second := (List.suffix_cons '-' fourth).trans (suffix_of_fixedNumber hmonth)
        _ <:+ text := (List.suffix_cons '-' second).trans (suffix_of_fixedNumber hyear)
    · cases hdays
  · cases hmonths

/-- A time ends with a digit, or with the mark of universal time. -/
theorem end_of_dateTime {t : DateTime} (h : dateTime text = some t) (hnull : '\x00' ∉ text) :
    EndsAsTime text := by
  unfold dateTime at h
  obtain ⟨⟨day, rest⟩, hday, hnext⟩ := Option.bind_eq_some_iff.1 h
  cases rest with
  | nil => cases hnext
  | cons mark time =>
      have hsuffix : time <:+ text := (List.suffix_cons mark time).trans (suffix_of_date hday)
      exact (end_of_timeOn hnext fun hmem => hnull (hsuffix.subset hmem)).of_suffix hsuffix

theorem EndsAsTime.isBlank_eq (h : EndsAsTime text) {c : Char} (hlast : text.getLast? = some c) :
    isBlank c = false := by
  obtain ⟨d, hd, hmark⟩ := h
  obtain rfl := Option.some.inj (hlast.symm.trans hd)
  have hpoints : ∀ n ∈ blankPoints,
      ((asciiDigitValue? (Char.ofNat n)).isSome || Char.ofNat n == 'Z') = false := by
    decide +kernel
  exact isBlank_of_points (p := fun c => (asciiDigitValue? c).isSome || c == 'Z') hpoints
    (by simpa using hmark)

section

variable {blanks : List Char} (hne : blanks ≠ []) (hblanks : ∀ c ∈ blanks, isBlank c = true)

include hne hblanks

/-- No time has blanks behind it. -/
theorem dateTime_append_blanks (hnull : '\x00' ∉ text) : dateTime (text ++ blanks) = none := by
  refine Option.eq_none_iff_forall_ne_some.2 fun t h => ?_
  have hnull' : '\x00' ∉ text ++ blanks := by
    rw [List.mem_append]
    rintro (hmem | hmem)
    · exact hnull hmem
    · exact absurd (hblanks _ hmem) (by decide)
  obtain ⟨c, hlast, hc⟩ := exists_getLast?_append_blanks hne hblanks text
  exact Bool.false_ne_true (((end_of_dateTime h hnull').isBlank_eq hlast).symm.trans hc)

end

theorem length_of_looksLikeDate (h : looksLikeDate text = true) : 10 ≤ text.length := by
  unfold looksLikeDate at h
  split at h
  · simp
  · cases h

/-- Blanks behind a text do not make it look like a date. -/
theorem looksLikeDate_append_blanks {blanks : List Char} (hblanks : ∀ c ∈ blanks, isBlank c = true)
    (text : List Char) : looksLikeDate (text ++ blanks) = looksLikeDate text := by
  rw [Bool.eq_iff_iff]
  constructor
  · intro h
    unfold looksLikeDate at h
    split at h
    · next a b c d first e f second g last rest heq =>
      have heq : text ++ blanks = [a, b, c, d, first, e, f, second, g, last] ++ rest := heq
      have hlast : isDigit last = true := by simp_all
      rcases List.append_eq_append_iff.1 heq with ⟨behind, hten, hbehind⟩ | ⟨more, rfl, -⟩
      · -- The tenth character is a digit, so that none of the ten is among the blanks.
        cases hb : behind.getLast? with
        | none =>
            rw [List.getLast?_eq_none_iff.1 hb, List.append_nil] at hten
            rw [← hten]
            exact h
        | some blank =>
            have hmem : blank ∈ (text ++ behind).getLast? :=
              List.mem_getLast?_append_of_mem_getLast? hb
            rw [← hten] at hmem
            obtain rfl : last = blank := Option.some.inj hmem
            have hblank := hblanks last (hbehind ▸ List.mem_append_left _ (List.mem_of_getLast? hb))
            cases (isBlank_of_isDigit hlast).symm.trans hblank
      · exact h
    · cases h
  · intro h
    unfold looksLikeDate at h
    split at h
    · exact h
    · cases h

end Iso

end PropertyGraph
