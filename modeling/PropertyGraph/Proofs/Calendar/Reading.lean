import Mathlib.Data.Bool.AllAny
import PropertyGraph.Proofs.Calendar.Iso
import PropertyGraph.Proofs.Text.Split

/-!
Dates and times read back. What is written of a date, or of a time, is read as this date or time;
the one thing that gets lost is an offset of less than a second.
-/

namespace PropertyGraph

open Text

/-- The offset as it is read back: of less than a second nothing is left. -/
def UtcOffset.reread (o : UtcOffset) : UtcOffset :=
  if o.micros.natAbs < Calendar.microsPerSecond then .utc else o

/-- The time as it is read back. -/
def DateTime.reread (t : DateTime) : DateTime :=
  { t with offset? := t.offset?.map UtcOffset.reread }

/-- Nothing gets lost of an offset but what is less than a second. -/
theorem UtcOffset.reread_eq_self_iff {o : UtcOffset} :
    o.reread = o ↔ ¬ (o.micros ≠ 0 ∧ o.micros.natAbs < Calendar.microsPerSecond) := by
  obtain ⟨micros, bounded⟩ := o
  unfold reread
  split
  case isTrue hsmall =>
    rw [utc, UtcOffset.mk.injEq]
    exact ⟨fun h hfine => hfine.1 h.symm, fun h => Classical.by_contradiction fun hne =>
      h ⟨fun hzero => hne hzero.symm, hsmall⟩⟩
  case isFalse hlarge => exact iff_of_true rfl fun hfine => hlarge hfine.2

theorem DateTime.reread_eq_self_iff {t : DateTime} :
    t.reread = t ↔ t.offset?.map UtcOffset.reread = t.offset? := by
  obtain ⟨date, hour, minute, second, micro, offset?, valid⟩ := t
  simp [reread]

theorem Date.length_iso (d : Date) : d.iso.length = 10 := by
  have hvalid := d.valid
  have hday := Calendar.daysInMonth_le d.year d.month
  have hyear : (paddedDigits 4 d.year).length = 4 := length_paddedDigits (by decide) (by omega)
  have hmonth : (paddedDigits 2 d.month).length = 2 := length_paddedDigits (by decide) (by omega)
  have hday : (paddedDigits 2 d.day).length = 2 := length_paddedDigits (by decide) (by omega)
  simp only [Date.iso, List.length_append, List.length_cons, hyear, hmonth, hday]

theorem Date.iso_ne_nil (d : Date) : d.iso ≠ [] := List.ne_nil_of_length_eq_add_one d.length_iso

section

variable {c : Char}

theorem Date.mem_of_mem_iso {d : Date} (h : c ∈ d.iso) : c ∈ asciiDigits ++ ['-'] := by
  have hdigits {width n : Nat} (h : c ∈ paddedDigits width n) : c ∈ asciiDigits ++ ['-'] :=
    List.mem_append_left _ (mem_asciiDigits_of_mem_paddedDigits h)
  simp only [Date.iso, List.mem_append, List.mem_cons] at h
  rcases h with (h | rfl | h) | rfl | h
  · exact hdigits h
  · decide
  · exact hdigits h
  · decide
  · exact hdigits h

theorem UtcOffset.mem_of_mem_iso {o : UtcOffset} (h : c ∈ o.iso) :
    c ∈ asciiDigits ++ "+-:.".toList := by
  have hdigits {width n : Nat} (h : c ∈ paddedDigits width n) :
      c ∈ asciiDigits ++ "+-:.".toList :=
    List.mem_append_left _ (mem_asciiDigits_of_mem_paddedDigits h)
  simp only [UtcOffset.iso, List.mem_append, List.mem_cons] at h
  rcases h with (((rfl | h) | rfl | h) | h) | h
  · split <;> decide
  · exact hdigits h
  · decide
  · exact hdigits h
  · split at h
    · cases h
    · rcases List.mem_cons.1 h with rfl | h
      · decide
      · exact hdigits h
  · split at h
    · cases h
    · rcases List.mem_cons.1 h with rfl | h
      · decide
      · exact hdigits h

theorem DateTime.mem_of_mem_clockText {t : DateTime} (h : c ∈ t.clockText) :
    c ∈ asciiDigits ++ [':', '.'] := by
  have hdigits {width n : Nat} (h : c ∈ paddedDigits width n) : c ∈ asciiDigits ++ [':', '.'] :=
    List.mem_append_left _ (mem_asciiDigits_of_mem_paddedDigits h)
  simp only [DateTime.clockText, List.mem_append, List.mem_cons] at h
  rcases h with ((h | rfl | h) | rfl | h) | h
  · exact hdigits h
  · decide
  · exact hdigits h
  · decide
  · exact hdigits h
  · split at h
    · cases h
    · rcases List.mem_cons.1 h with rfl | h
      · decide
      · exact hdigits h

/-- The text of a time is that of its date, with a mark and the time of the day behind it. -/
theorem DateTime.iso_eq (t : DateTime) :
    t.iso = t.date.iso ++ 'T' :: (t.clockText ++ (t.offset?.map UtcOffset.iso).getD []) := by
  simp [DateTime.iso, DateTime.isoWith]

theorem DateTime.iso_ne_nil (t : DateTime) : t.iso ≠ [] := by
  rw [t.iso_eq]
  exact List.append_ne_nil_of_left_ne_nil t.date.iso_ne_nil _

theorem DateTime.mem_of_mem_iso {t : DateTime} (h : c ∈ t.iso) :
    c ∈ asciiDigits ++ "+-:.T".toList := by
  have hdate : ∀ c ∈ asciiDigits ++ ['-'], c ∈ asciiDigits ++ "+-:.T".toList :=
    List.all_iff_forall_prop.1 (by decide)
  have hclock : ∀ c ∈ asciiDigits ++ [':', '.'], c ∈ asciiDigits ++ "+-:.T".toList :=
    List.all_iff_forall_prop.1 (by decide)
  have hoffset : ∀ c ∈ asciiDigits ++ "+-:.".toList, c ∈ asciiDigits ++ "+-:.T".toList :=
    List.all_iff_forall_prop.1 (by decide)
  simp only [DateTime.iso_eq, List.mem_append, List.mem_cons] at h
  rcases h with h | rfl | h | h
  · exact hdate c (Date.mem_of_mem_iso h)
  · decide
  · exact hclock c (DateTime.mem_of_mem_clockText h)
  · cases ho : t.offset? with
    | none =>
        rw [ho] at h
        cases h
    | some o =>
        rw [ho] at h
        exact hoffset c (UtcOffset.mem_of_mem_iso h)

end

namespace Iso

variable {n : Nat}

theorem asciiDigitValue?_of_mem {c : Char} (h : c ∈ asciiDigits) :
    asciiDigitValue? c = digitValue? c := by
  have hall : ∀ c ∈ asciiDigits, asciiDigitValue? c = digitValue? c :=
    List.all_iff_forall_prop.1 (by decide)
  exact hall c h

/-- As many digits as are asked for are read as the number that they write. -/
theorem fixedNumber_digits {digits : List Char} (h : ∀ c ∈ digits, c ∈ asciiDigits) (value : Nat)
    (rest : List Char) :
    fixedNumber digits.length value (digits ++ rest) =
      some (value * 10 ^ digits.length + digitsValue digits, rest) := by
  induction digits generalizing value with
  | nil => simp [fixedNumber, digitsValue]
  | cons c digits ih =>
      obtain ⟨hc, hdigits⟩ := List.forall_mem_cons.1 h
      obtain ⟨digit, hdigit⟩ := Option.isSome_iff_exists.1 (isDigit_of_mem_asciiDigits hc)
      have hone : digitsValue [c] = digit := by simp [digitsValue, hdigit]
      have hvalue : digitsValue (c :: digits) =
          digit * 10 ^ digits.length + digitsValue digits := by
        rw [← List.singleton_append, digitsValue_append, hone]
      rw [List.length_cons, List.cons_append, fixedNumber, asciiDigitValue?_of_mem hc, hdigit,
        Option.bind_some, ih hdigits, hvalue, Nat.pow_succ]
      congr 2
      ring

theorem fixedNumber_paddedDigits {width : Nat} (hwidth : 0 < width) (hn : n < 10 ^ width)
    (rest : List Char) : fixedNumber width 0 (paddedDigits width n ++ rest) = some (n, rest) := by
  have hdigits : ∀ c ∈ paddedDigits width n, c ∈ asciiDigits := fun c =>
    mem_asciiDigits_of_mem_paddedDigits
  have hread := fixedNumber_digits hdigits 0 rest
  rwa [length_paddedDigits hwidth hn, Nat.zero_mul, Nat.zero_add, digitsValue_paddedDigits]
    at hread

theorem date_iso (d : Date) (rest : List Char) : Iso.date (d.iso ++ rest) = some (d, rest) := by
  have hvalid := d.valid
  have hday := Calendar.daysInMonth_le d.year d.month
  have hyear : d.year < 10 ^ 4 := by omega
  have hmonth : d.month < 10 ^ 2 := by omega
  have hday : d.day < 10 ^ 2 := by omega
  unfold Iso.date Date.iso
  simp only [List.append_assoc, List.cons_append,
    fixedNumber_paddedDigits (by decide : 0 < 4) hyear, Option.bind_eq_bind, Option.bind_some,
    fixedNumber_paddedDigits (by decide : 0 < 2) hmonth,
    fixedNumber_paddedDigits (by decide : 0 < 2) hday, Date.ofFields?_fields]
  rfl

/-- A text of the digits of a date is taken for one. -/
theorem looksLikeDate_iso (d : Date) (rest : List Char) :
    looksLikeDate (d.iso ++ rest) = true := by
  have hvalid := d.valid
  have hday := Calendar.daysInMonth_le d.year d.month
  have hdigit {width n : Nat} {c : Char} (hc : c ∈ paddedDigits width n) : isDigit c = true :=
    isDigit_of_mem_asciiDigits (mem_asciiDigits_of_mem_paddedDigits hc)
  have hyear : (paddedDigits 4 d.year).length = 4 := length_paddedDigits (by decide) (by omega)
  have hmonth : (paddedDigits 2 d.month).length = 2 := length_paddedDigits (by decide) (by omega)
  have hday : (paddedDigits 2 d.day).length = 2 := length_paddedDigits (by decide) (by omega)
  obtain ⟨m, o, hm⟩ := List.length_eq_two.1 hmonth
  obtain ⟨t, u, hd⟩ := List.length_eq_two.1 hday
  match hy : paddedDigits 4 d.year, hyear with
  | [y, e, a, r], _ =>
      have hall : ∀ c ∈ [y, e, a, r, m, o, t, u], isDigit c = true := by
        intro c hc
        have hc : c ∈ paddedDigits 4 d.year ∨ c ∈ paddedDigits 2 d.month ∨
            c ∈ paddedDigits 2 d.day := by
          rw [hy, hm, hd]
          simpa [or_assoc] using hc
        rcases hc with hc | hc | hc <;> exact hdigit hc
      rw [Date.iso, hy, hm, hd]
      show (List.all _ isDigit && _ && _) = true
      rw [List.all_eq_true.2 hall]
      rfl

section

variable {after text : List Char} {left : Nat} {colons? : Option Bool}

/-- Every character takes a byte at least, so that a text behind a mark is two bytes with it. -/
theorem not_byteCount_cons_le_one (c : Char) (htext : text ≠ []) :
    ¬byteCount (c :: text) ≤ 1 := by
  obtain ⟨d, rest, rfl⟩ := List.exists_cons_of_ne_nil htext
  have hc := c.utf8Size_pos
  have hd := d.utf8Size_pos
  have hbytes : byteCount (c :: d :: rest) = c.utf8Size + (d.utf8Size + byteCount rest) := by
    simp [byteCount]
  omega

/-- A part of a time with a colon behind it. -/
theorem clockParts_colon (hn : n < 10 ^ 2) (hcolons : colons?.getD true = true)
    (parts : List Nat) (htext : text ≠ []) :
    clockParts after (left + 1) colons? parts (paddedDigits 2 n ++ ':' :: text) =
      clockParts after left (some true) (parts ++ [n]) text := by
  have hlong := not_byteCount_cons_le_one ':' htext
  rw [clockParts, fixedNumber_paddedDigits (by decide) hn]
  cases colons? with
  | none => simp [hlong]
  | some colons =>
      obtain rfl : colons = true := hcolons
      simp [hlong]

/-- The last part of a time, at the end of the text. -/
theorem clockParts_last (hn : n < 10 ^ 2) (parts : List Nat) :
    clockParts after (left + 1) colons? parts (paddedDigits 2 n) =
      some (parts ++ [n], 0, atEnd after) := by
  have hread := fixedNumber_paddedDigits (by decide : 0 < 2) hn []
  rw [List.append_nil] at hread
  rw [clockParts, hread]
  rfl

theorem fraction_paddedDigits (hn : n < 10 ^ 6) :
    fraction (paddedDigits 6 n) after =
      some (n, atEnd (after.dropWhile fun c => (asciiDigitValue? c).isSome)) := by
  have hread := fixedNumber_paddedDigits (by decide : 0 < 6) hn []
  have hlength := length_paddedDigits (by decide : 0 < 6) hn
  rw [List.append_nil] at hread
  have hdrop : (paddedDigits 6 n).drop 6 = [] := List.drop_of_length_le hlength.le
  rw [fraction, hlength, Nat.min_self, hread]
  show some (n * 1, atEnd (((paddedDigits 6 n).drop 6 ++ after).dropWhile _)) = _
  rw [hdrop, Nat.mul_one, List.nil_append]

/-- The last part of a time with a fraction behind it. -/
theorem clockParts_point (hn : n < 10 ^ 2) {micro : Nat} (hmicro : micro < 10 ^ 6)
    (parts : List Nat) :
    clockParts after (left + 1) colons? parts (paddedDigits 2 n ++ '.' :: paddedDigits 6 micro) =
      some (parts ++ [n], micro, atEnd (after.dropWhile fun c => (asciiDigitValue? c).isSome)) := by
  have hlong := not_byteCount_cons_le_one '.' (paddedDigits_ne_nil 6 micro)
  rw [clockParts, fixedNumber_paddedDigits (by decide) hn]
  cases colons? <;> simp [hlong, fraction_paddedDigits hmicro]

/-- The fraction of a second, of which nothing is written if it is zero. -/
def fractionText (micro : Nat) : List Char := if micro = 0 then [] else '.' :: paddedDigits 6 micro

variable {hour minute second micro : Nat}

theorem clock_minutes (hhour : hour < 10 ^ 2) (hminute : minute < 10 ^ 2) :
    clock (paddedDigits 2 hour ++ ':' :: paddedDigits 2 minute) [] =
      some (⟨hour, minute, 0, 0⟩, true) := by
  rw [clock, clockParts_colon hhour rfl [] (paddedDigits_ne_nil _ _), clockParts_last hminute]
  rfl

/-- A time of seconds is read to its end, with its fraction if it has one. -/
theorem exists_clock_seconds (hhour : hour < 10 ^ 2) (hminute : minute < 10 ^ 2)
    (hsecond : second < 10 ^ 2) (hmicro : micro < 10 ^ 6) (after : List Char) :
    ∃ whole, clock (paddedDigits 2 hour ++ ':' :: (paddedDigits 2 minute ++
        ':' :: (paddedDigits 2 second ++ fractionText micro))) after =
      some (⟨hour, minute, second, micro⟩, whole) ∧ (after = [] → whole = true) := by
  have hseconds : paddedDigits 2 second ++ fractionText micro ≠ [] :=
    List.append_ne_nil_of_left_ne_nil (paddedDigits_ne_nil _ _) _
  have hminutes : paddedDigits 2 minute ++ ':' :: (paddedDigits 2 second ++ fractionText micro) ≠
      [] := List.append_ne_nil_of_left_ne_nil (paddedDigits_ne_nil _ _) _
  rw [clock, clockParts_colon hhour rfl [] hminutes, clockParts_colon hminute rfl _ hseconds,
    fractionText]
  split
  case isTrue hzero =>
    rw [List.append_nil, clockParts_last hsecond, hzero]
    refine ⟨_, rfl, ?_⟩
    rintro rfl
    rfl
  case isFalse =>
    rw [clockParts_point hsecond hmicro]
    refine ⟨_, rfl, ?_⟩
    rintro rfl
    rfl

end

/-- An offset is written as its sign and a time. -/
theorem exists_clock_of_offset (o : UtcOffset) :
    ∃ text c, o.iso = (if o.micros < 0 then '-' else '+') :: text ∧
      clock text [] = some (c, true) ∧
      (c.hour * 60 + c.minute) * 60 + c.second = o.micros.natAbs / Calendar.microsPerSecond ∧
      c.micro = o.micros.natAbs % Calendar.microsPerSecond := by
  have hbounded := o.bounded
  have hmicro : o.micros.natAbs % Calendar.microsPerSecond < 10 ^ 6 := Nat.mod_lt _ (by decide)
  have hseconds : o.micros.natAbs / Calendar.microsPerSecond < 86400 :=
    Nat.div_lt_of_lt_mul (by rwa [Calendar.microsPerDay, Nat.mul_comm] at hbounded)
  unfold UtcOffset.iso
  dsimp only
  generalize o.micros.natAbs % Calendar.microsPerSecond = micro at hmicro ⊢
  generalize o.micros.natAbs / Calendar.microsPerSecond = seconds at hseconds ⊢
  generalize (if o.micros < 0 then '-' else '+') = mark
  have hhour : seconds / 3600 < 10 ^ 2 := by omega
  have hminute : seconds / 60 % 60 < 10 ^ 2 := by omega
  have hsecond : seconds % 60 < 10 ^ 2 := by omega
  split
  case isTrue hzero =>
    obtain ⟨hwhole, rfl⟩ := hzero
    refine ⟨_, _, ?_, clock_minutes hhour hminute, ?_, rfl⟩
    · simp
    · show (seconds / 3600 * 60 + seconds / 60 % 60) * 60 + 0 = seconds
      omega
  case isFalse =>
    obtain ⟨whole, hclock, hwhole⟩ := exists_clock_seconds hhour hminute hsecond hmicro []
    rw [hwhole rfl] at hclock
    refine ⟨_, _, ?_, hclock, ?_, rfl⟩
    · simp [fractionText]
    · show (seconds / 3600 * 60 + seconds / 60 % 60) * 60 + seconds % 60 = seconds
      omega

theorem offset_of_clock {mark : Char} (hmark : mark ≠ 'Z') {text : List Char} {c : Clock}
    (hclock : clock text [] = some (c, true)) {seconds : Nat}
    (hseconds : (c.hour * 60 + c.minute) * 60 + c.second = seconds) :
    offset (mark :: text) =
      let magnitude : Nat := if seconds = 0 then 0 else seconds * Calendar.microsPerSecond + c.micro
      UtcOffset.ofMicros? (if mark = '-' then -(magnitude : Int) else magnitude) := by
  subst hseconds
  unfold offset
  split
  · next heq => exact absurd (List.cons.inj heq).1 hmark
  · next heq =>
    obtain ⟨rfl, rfl⟩ := List.cons.inj heq
    rw [hclock]
    rfl
  · next heq => cases heq

/-- What is written of an offset is read as it, unless it is of less than a second. -/
theorem offset_iso (o : UtcOffset) : offset o.iso = some o.reread := by
  obtain ⟨text, c, htext, hclock, hseconds, hmicro⟩ := exists_clock_of_offset o
  have hmark : (if o.micros < 0 then '-' else '+') ≠ 'Z' := by split <;> decide
  have hsplit := Nat.div_add_mod' o.micros.natAbs Calendar.microsPerSecond
  rw [htext, offset_of_clock hmark hclock hseconds, hmicro, hsplit, UtcOffset.reread]
  dsimp only
  by_cases hsmall : o.micros.natAbs < Calendar.microsPerSecond
  · rw [if_pos hsmall, Nat.div_eq_of_lt hsmall]
    split <;> rfl
  · have hlarge : o.micros.natAbs / Calendar.microsPerSecond ≠ 0 :=
      (Nat.div_pos (Nat.le_of_not_lt hsmall) (by decide)).ne'
    have hsigned : (if (if o.micros < 0 then '-' else '+') = '-' then -(o.micros.natAbs : Int)
        else o.micros.natAbs) = o.micros := by
      by_cases hnegative : o.micros < 0
      · rw [if_pos hnegative, if_pos rfl]
        omega
      · rw [if_neg hnegative, if_neg (by decide)]
        omega
    rw [if_neg hsmall, if_neg hlarge, hsigned, UtcOffset.ofMicros?, dif_pos o.bounded]

section

variable (t : DateTime)

/-- The time of a day is read to the mark of its offset. -/
theorem span_clockText : (t.clockText ++ (t.offset?.map UtcOffset.iso).getD []).span
      (fun c => !(c == '+' || c == '-' || c == 'Z')) =
    (t.clockText, (t.offset?.map UtcOffset.iso).getD []) := by
  have hchars : ∀ c ∈ asciiDigits ++ [':', '.'], (!(c == '+' || c == '-' || c == 'Z')) = true :=
    List.all_iff_forall_prop.1 (by decide)
  refine span_append (fun c hc => hchars c (DateTime.mem_of_mem_clockText hc)) fun c hc => ?_
  cases hoffset : t.offset? with
  | none =>
      rw [hoffset] at hc
      cases hc
  | some o =>
      obtain ⟨d, rest, hd, hmark⟩ := o.iso_head
      rw [hoffset, Option.map_some, Option.getD_some, hd] at hc
      obtain rfl : d = c := Option.some.inj hc
      rcases hmark with rfl | rfl <;> rfl

theorem exists_clock_clockText (after : List Char) :
    ∃ whole, clock t.clockText after = some (⟨t.hour, t.minute, t.second, t.micro⟩, whole) ∧
      (after = [] → whole = true) := by
  obtain ⟨hhour, hminute, hsecond, hmicro⟩ := t.valid
  have hclock := exists_clock_seconds (hhour.trans (by decide)) (hminute.trans (by decide))
    (hsecond.trans (by decide)) hmicro after
  simpa [DateTime.clockText, fractionText] using hclock

theorem timeOn_clockText :
    timeOn t.date (t.clockText ++ (t.offset?.map UtcOffset.iso).getD []) = some t.reread := by
  obtain ⟨whole, hclock, hwhole⟩ := exists_clock_clockText t ((t.offset?.map UtcOffset.iso).getD [])
  have hfields : DateTime.ofFields? t.date t.hour t.minute t.second t.micro
      (t.offset?.map UtcOffset.reread) = some t.reread := t.reread.ofFields?_fields
  rw [timeOn, span_clockText, ← hfields]
  dsimp only
  rw [hclock, Option.bind_eq_bind, Option.bind_some]
  cases hoffset : t.offset? with
  | none =>
      rw [hoffset] at hwhole
      rw [hwhole rfl]
      rfl
  | some o =>
      obtain ⟨c, rest, htext, -⟩ := o.iso_head
      have hpresent : ((some o).map UtcOffset.iso |>.getD []).isEmpty = false := by
        rw [Option.map_some, Option.getD_some, htext]
        rfl
      rw [hpresent, if_neg Bool.false_ne_true, Option.map_some, Option.getD_some, offset_iso]
      rfl

/-- What is written of a time is read as it, but for an offset of less than a second. -/
theorem dateTime_iso : dateTime t.iso = some t.reread := by
  rw [dateTime, t.iso_eq, date_iso]
  exact timeOn_clockText t

end

end Iso

end PropertyGraph
