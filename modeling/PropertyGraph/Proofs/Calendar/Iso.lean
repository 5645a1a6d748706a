import PropertyGraph.Calendar.Iso
import PropertyGraph.Proofs.Text.Digit

/-!
No two dates, and no two times, are written alike: the fields have fixed widths, and the parts that
can be missing begin with characters of their own.
-/

namespace PropertyGraph

open Text

namespace Text

/-- A number of fixed width is determined by the start of a text. -/
theorem paddedDigits_append_inj {width m n : Nat} {first second : List Char} (hwidth : 0 < width)
    (hm : m < 10 ^ width) (hn : n < 10 ^ width)
    (h : paddedDigits width m ++ first = paddedDigits width n ++ second) :
    m = n ∧ first = second := by
  have hlength : (paddedDigits width m).length = (paddedDigits width n).length := by
    rw [length_paddedDigits hwidth hm, length_paddedDigits hwidth hn]
  obtain ⟨hdigits, hrest⟩ := List.append_inj h hlength
  exact ⟨paddedDigits_inj hdigits, hrest⟩

end Text

theorem Calendar.daysInMonth_le (year month : Nat) : Calendar.daysInMonth year month ≤ 31 := by
  unfold Calendar.daysInMonth
  split
  · split <;> decide
  · split <;> decide

namespace Date

theorem iso_append_inj {a b : Date} {first second : List Char}
    (h : a.iso ++ first = b.iso ++ second) : a = b ∧ first = second := by
  have ha := a.valid
  have hb := b.valid
  have hdayA := Calendar.daysInMonth_le a.year a.month
  have hdayB := Calendar.daysInMonth_le b.year b.month
  simp only [iso, List.append_assoc, List.cons_append] at h
  obtain ⟨hyear, h⟩ := paddedDigits_append_inj (by decide) (by omega) (by omega) h
  obtain ⟨hmonth, h⟩ := paddedDigits_append_inj (by decide) (by omega) (by omega)
    (List.cons.inj h).2
  obtain ⟨hday, h⟩ := paddedDigits_append_inj (by decide) (by omega) (by omega)
    (List.cons.inj h).2
  refine ⟨?_, h⟩
  cases a
  cases b
  simp_all

theorem iso_inj {a b : Date} (h : a.iso = b.iso) : a = b := by
  have happend : a.iso ++ [] = b.iso ++ [] := by rw [h]
  exact (iso_append_inj happend).1

end Date

namespace UtcOffset

/-- The seconds and their fraction, of which what is zero is left out. -/
theorem tail_inj {s t m n : Nat} (hs : s < 60) (ht : t < 60)
    (h : (if s = 0 ∧ m = 0 then [] else ':' :: paddedDigits 2 s) ++
        (if m = 0 then [] else '.' :: paddedDigits 6 m) =
      (if t = 0 ∧ n = 0 then [] else ':' :: paddedDigits 2 t) ++
        (if n = 0 then [] else '.' :: paddedDigits 6 n)) : s = t ∧ m = n := by
  have hfraction : ∀ first second : List Char, first = second →
      (if m = 0 then [] else '.' :: paddedDigits 6 m) = first →
      (if n = 0 then [] else '.' :: paddedDigits 6 n) = second → m = n := by
    rintro first second rfl hfirst hsecond
    rw [← hsecond] at hfirst
    split at hfirst <;> split at hfirst
    · omega
    · cases hfirst
    · cases hfirst
    · exact paddedDigits_inj (List.cons.inj hfirst).2
  -- Seconds are left out only where the fraction is, so the texts begin alike or one is empty.
  by_cases hzero : s = 0 ∧ m = 0 <;> by_cases hzero' : t = 0 ∧ n = 0
  · omega
  · rw [if_pos hzero, if_neg hzero', if_pos hzero.2] at h
    cases h
  · rw [if_neg hzero, if_pos hzero', if_pos hzero'.2] at h
    cases h
  · rw [if_neg hzero, if_neg hzero', List.cons_append, List.cons_append] at h
    obtain ⟨hseconds, hrest⟩ := paddedDigits_append_inj (by decide) (by omega) (by omega)
      (List.cons.inj h).2
    exact ⟨hseconds, hfraction _ _ hrest rfl rfl⟩

theorem iso_inj {a b : UtcOffset} (h : a.iso = b.iso) : a = b := by
  have ha := a.bounded
  have hb := b.bounded
  simp only [Calendar.microsPerDay, Calendar.microsPerSecond] at ha hb
  simp only [iso, Calendar.microsPerSecond, List.append_assoc, List.cons_append] at h
  obtain ⟨hsign, h⟩ := List.cons.inj h
  obtain ⟨hhours, h⟩ := paddedDigits_append_inj (by decide) (by omega) (by omega) h
  obtain ⟨hminutes, h⟩ := paddedDigits_append_inj (by decide) (by omega) (by omega)
    (List.cons.inj h).2
  obtain ⟨hseconds, hmicros⟩ := tail_inj (by omega) (by omega) h
  have hnegative : a.micros < 0 ↔ b.micros < 0 := by
    by_cases hA : a.micros < 0 <;> by_cases hB : b.micros < 0
    · exact iff_of_true hA hB
    · simp [hA, hB] at hsign
    · simp [hA, hB] at hsign
    · exact iff_of_false hA hB
  have hmicrosEq : a.micros = b.micros := by omega
  cases a
  cases b
  simpa using hmicrosEq

theorem iso_head (a : UtcOffset) : ∃ c rest, a.iso = c :: rest ∧ (c = '-' ∨ c = '+') := by
  refine ⟨_, _, rfl, ?_⟩
  split
  · exact .inl rfl
  · exact .inr rfl

end UtcOffset

namespace DateTime

/-- The text of an offset that may be missing. -/
theorem offset_inj {a b : Option UtcOffset}
    (h : (a.map UtcOffset.iso).getD [] = (b.map UtcOffset.iso).getD []) : a = b := by
  cases a with
  | none =>
      cases b with
      | none => rfl
      | some y =>
          obtain ⟨c, rest, hy, -⟩ := y.iso_head
          rw [Option.map_some, Option.getD_some, hy] at h
          cases h
  | some x =>
      cases b with
      | none =>
          obtain ⟨c, rest, hx, -⟩ := x.iso_head
          rw [Option.map_some, Option.getD_some, hx] at h
          cases h
      | some y => rw [UtcOffset.iso_inj h]

theorem point_ne_offset (text : List Char) (offset : Option UtcOffset) :
    '.' :: text ≠ (offset.map UtcOffset.iso).getD [] := by
  intro h
  cases offset with
  | none => cases h
  | some x =>
      obtain ⟨c, rest, hx, hc⟩ := x.iso_head
      rw [Option.map_some, Option.getD_some, hx] at h
      obtain ⟨rfl, -⟩ := List.cons.inj h
      rcases hc with hc | hc <;> exact absurd hc (by decide)

theorem fraction_inj {m n : Nat} {a b : Option UtcOffset} (hm : m < 1000000) (hn : n < 1000000)
    (h : (if m = 0 then [] else '.' :: paddedDigits 6 m) ++ (a.map UtcOffset.iso).getD [] =
      (if n = 0 then [] else '.' :: paddedDigits 6 n) ++ (b.map UtcOffset.iso).getD []) :
    m = n ∧ a = b := by
  split at h <;> split at h
  · exact ⟨by omega, offset_inj h⟩
  · exact absurd h.symm (point_ne_offset _ _)
  · exact absurd h (point_ne_offset _ _)
  · obtain ⟨hmicros, hoffset⟩ := paddedDigits_append_inj (by decide) (by omega) (by omega)
      (List.cons.inj h).2
    exact ⟨hmicros, offset_inj hoffset⟩

theorem iso_inj {a b : DateTime} (h : a.iso = b.iso) : a = b := by
  have ha := a.valid
  have hb := b.valid
  simp only [Calendar.microsPerSecond] at ha hb
  simp only [iso, isoWith, clockText, List.append_assoc, List.cons_append] at h
  obtain ⟨hdate, h⟩ := Date.iso_append_inj h
  obtain ⟨hhour, h⟩ := paddedDigits_append_inj (by decide) (by omega) (by omega)
    (List.cons.inj h).2
  obtain ⟨hminute, h⟩ := paddedDigits_append_inj (by decide) (by omega) (by omega)
    (List.cons.inj h).2
  obtain ⟨hsecond, h⟩ := paddedDigits_append_inj (by decide) (by omega) (by omega)
    (List.cons.inj h).2
  obtain ⟨hmicro, hoffset⟩ := fraction_inj (by omega) (by omega) h
  cases a
  cases b
  simp_all

/-- A time is not written as a date is: its date is followed by the mark of the time. -/
theorem iso_ne_date (t : DateTime) (d : Date) : t.iso ≠ d.iso := by
  intro h
  have happend : t.date.iso ++ ('T' :: (t.clockText ++ (t.offset?.map UtcOffset.iso).getD [])) =
      d.iso ++ [] := by
    rw [List.append_nil, ← h]
    simp [iso, isoWith]
  have hnil := (Date.iso_append_inj happend).2
  cases hnil

end DateTime

end PropertyGraph
