import PropertyGraph.Proofs.Calendar.Reading
import PropertyGraph.Proofs.Language.Label
import PropertyGraph.Proofs.Number.Text
import PropertyGraph.Proofs.Value.Part

/-!
Values that plans show, read as literals. Truth values, integers of no more digits than are read,
numbers without an exponent, dates and times are read back, and so are lists of them, with blanks
around or without. The one thing that gets lost is an offset of less than a second.
-/

namespace PropertyGraph

open Text

namespace Value

/-- The scalars whose texts in plans can be read. -/
def LegibleScalar : Value → Prop
  | .bool _ | .date _ | .dateTime _ => True
  | .int n => (natDigits n.natAbs).length ≤ digitLimit
  | .float x => x.isFinite = true ∧ 'e' ∉ x.text
  | _ => False

/-- Such scalars, and tuples of them. -/
def Legible : Value → Prop
  | .tuple items => ∀ item ∈ items, item.LegibleScalar
  | v => v.LegibleScalar

/-- A time with an offset of less than a second, which is not zero. -/
def IsFinelyOffset (v : Value) : Prop :=
  ∃ t o, v = .dateTime t ∧ t.offset? = some o ∧ o.micros ≠ 0 ∧
    o.micros.natAbs < Calendar.microsPerSecond

def rereadScalar : Value → Value
  | .dateTime t => .dateTime t.reread
  | v => v

/-- The value as it is read back. -/
def reread : Value → Value
  | .tuple items => .tuple (items.map rereadScalar)
  | v => v.rereadScalar

theorem rereadScalar_eq_self_iff {v : Value} : v.rereadScalar = v ↔ ¬ v.IsFinelyOffset := by
  cases v with
  | dateTime t =>
      rw [rereadScalar, Value.dateTime.injEq, DateTime.reread_eq_self_iff]
      constructor
      · rintro hself ⟨t, o, ht, ho, hfine⟩
        obtain rfl := Value.dateTime.inj ht
        rw [ho, Option.map_some] at hself
        exact UtcOffset.reread_eq_self_iff.1 (Option.some.inj hself) hfine
      · intro hcoarse
        cases ho : t.offset? with
        | none => rfl
        | some o =>
            have hself : o.reread = o :=
              UtcOffset.reread_eq_self_iff.2 fun hfine => hcoarse ⟨t, o, rfl, ho, hfine⟩
            rw [Option.map_some, hself]
  | _ => exact iff_of_true rfl (by rintro ⟨t, o, ht, -⟩; cases ht)

theorem reread_of_ne {v : Value} (h : ∀ items, v ≠ .tuple items) : v.reread = v.rereadScalar := by
  cases v with
  | tuple items => exact absurd rfl (h items)
  | _ => rfl

theorem LegibleScalar.ne_tuple {v : Value} (h : v.LegibleScalar) (items : List Value) :
    v ≠ .tuple items := by
  rintro rfl
  exact h

theorem legible_of_ne {v : Value} (h : ∀ items, v ≠ .tuple items) :
    v.Legible ↔ v.LegibleScalar := by
  cases v with
  | tuple items => exact absurd rfl (h items)
  | _ => rfl

/-- A legible value is read back as it is, unless an item of it has too fine an offset. -/
theorem reread_eq_self_iff {v : Value} (h : v.Legible) :
    v.reread = v ↔ ¬ v.HasPart IsFinelyOffset := by
  by_cases htuple : ∃ items, v = .tuple items
  · obtain ⟨items, rfl⟩ := htuple
    have hwhole : ¬ IsFinelyOffset (.tuple items) := by
      rintro ⟨t, o, ht, -⟩
      cases ht
    have hmap : items.map rereadScalar = items ↔ ∀ item ∈ items, item.rereadScalar = item := by
      simpa using List.map_inj_left (l := items) (f := rereadScalar) (g := id)
    rw [hasPart_tuple_iff hwhole, reread, Value.tuple.injEq, hmap]
    simp only [rereadScalar_eq_self_iff, not_exists, not_and]
    exact forall₂_congr fun item hitem => not_congr (hasPart_iff_of_ne (h item hitem).ne_tuple).symm
  · have hne : ∀ items, v ≠ .tuple items := fun items hitems => htuple ⟨items, hitems⟩
    rw [hasPart_iff_of_ne hne, reread_of_ne hne, rereadScalar_eq_self_iff]

end Value

namespace Literal

/-- A text is bare if it is made of characters that are neither blanks nor marks of lists. -/
theorem isBare_of_chars {text chars : List Char} (hne : text ≠ []) (h : ∀ c ∈ text, c ∈ chars)
    (hchars : ∀ c ∈ chars, isBlank c = false ∧ c ≠ ',' ∧ c ≠ '[') : IsBare text where
  ne_nil := hne
  unblank c hc := (hchars c (h c hc)).1
  comma hc := (hchars ',' (h ',' hc)).2.1 rfl
  bracket hc := (hchars '[' (h '[' hc)).2.2 rfl

theorem isBare_float {x : Double} (h : x.isFinite = true) : IsBare x.text := by
  cases x with
  | finite negative units hunits =>
      obtain ⟨text, htext, hnumeral, -⟩ :=
        NumberFormat.isNumeral_write NumberFormat.readable_plain negative hunits
      obtain ⟨c, -, hhead⟩ := hnumeral.head
      have hne : text ≠ [] := by
        rintro rfl
        cases hhead
      have hsign : ∀ c ∈ NumberFormat.sign negative, c ∈ numeralChars := by
        cases negative <;> exact List.all_iff_forall_prop.1 (by decide)
      rw [Double.text, htext]
      exact isBare_of_chars (List.append_ne_nil_of_right_ne_nil _ hne)
        (List.forall_mem_append.2 ⟨hsign, hnumeral.chars⟩) (List.all_iff_forall_prop.1 (by decide))
  | infinite negative => cases h
  | nan => cases h

/-- No scalar is written with a blank, a comma or a bracket. -/
theorem isBare_write {v : Value} (h : v.LegibleScalar) : IsBare (write v) := by
  cases v with
  | bool b =>
      have htrue : IsBare "true".toList :=
        isBare_of_chars (by decide) (fun _ => id) (List.all_iff_forall_prop.1 (by decide))
      have hfalse : IsBare "false".toList :=
        isBare_of_chars (by decide) (fun _ => id) (List.all_iff_forall_prop.1 (by decide))
      cases b with
      | true => exact htrue
      | false => exact hfalse
  | int n =>
      exact isBare_of_chars (intDigits_ne_nil n) (fun _ => mem_intDigits)
        (List.all_iff_forall_prop.1 (by decide))
  | float x => exact isBare_float h.1
  | date d =>
      exact isBare_of_chars d.iso_ne_nil (fun _ => Date.mem_of_mem_iso)
        (List.all_iff_forall_prop.1 (by decide))
  | dateTime t =>
      exact isBare_of_chars t.iso_ne_nil (fun _ => DateTime.mem_of_mem_iso)
        (List.all_iff_forall_prop.1 (by decide))
  | _ => exact h.elim

theorem numberParts?_intDigits (n : Int) :
    numberParts? (intDigits n) = some (decide (n < 0), natDigits n.natAbs, none) := by
  have hpoint : '.' ∉ natDigits n.natAbs := fun hc =>
    absurd (mem_asciiDigits_of_mem_natDigits hc) (by decide)
  have hdigits : (natDigits n.natAbs).all isDigit = true := List.all_eq_true.2 fun c hc =>
    isDigit_of_mem_asciiDigits (mem_asciiDigits_of_mem_natDigits hc)
  have htext : intDigits n = NumberFormat.sign (decide (n < 0)) ++ natDigits n.natAbs := by
    by_cases hn : n < 0 <;> simp [intDigits, NumberFormat.sign, hn]
  rw [htext]
  exact numberParts?_of_cut _ (cut_of_notMem hpoint) ⟨natDigits_ne_nil _, hdigits⟩
    fun fraction hnone => absurd hnone (Option.not_mem_none fraction)

theorem numberParts?_point (negative : Bool) {whole fraction : List Char}
    (h : NumberFormat.IsPointed whole fraction) :
    numberParts? (NumberFormat.sign negative ++ (whole ++ '.' :: fraction)) =
      some (negative, whole, some fraction) := by
  have hpoint : '.' ∉ whole := fun hc => absurd (h.whole '.' hc) (by decide)
  have hdigits {digits : List Char} (hall : ∀ c ∈ digits, c ∈ asciiDigits) :
      digits.all isDigit = true :=
    List.all_eq_true.2 fun c hc => isDigit_of_mem_asciiDigits (hall c hc)
  refine numberParts?_of_cut negative (cut_append_mark hpoint fraction)
    ⟨h.whole_ne_nil, hdigits h.whole⟩ fun other hother => ?_
  obtain rfl := Option.some.inj hother
  exact ⟨h.fraction_ne_nil, hdigits h.fraction⟩

/-- With its hyphens a date is no number. -/
theorem numberParts?_iso (d : Date) (rest : List Char) : numberParts? (d.iso ++ rest) = none := by
  rw [← Option.not_isSome_iff_eq_none]
  refine fun hsome => minus_notMem_tail_of_numberParts? hsome ?_
  obtain ⟨c, more, hyear⟩ := List.exists_cons_of_ne_nil (paddedDigits_ne_nil 4 d.year)
  simp [Date.iso, hyear]

/-- What begins with a date is read as a date or a time. -/
theorem readScalar_iso (d : Date) {rest : List Char} (h : IsBare (d.iso ++ rest)) :
    readScalar (d.iso ++ rest) = readDate (d.iso ++ rest) := by
  have hdate := Iso.looksLikeDate_iso d rest
  have htrue : d.iso ++ rest ≠ "true".toList := fun heq => absurd (heq ▸ hdate) (by decide)
  have hfalse : d.iso ++ rest ≠ "false".toList := fun heq => absurd (heq ▸ hdate) (by decide)
  have hnumber : numberParts? (dropFinalNewline (d.iso ++ rest)) = none := by
    rw [h.dropFinalNewline_eq, numberParts?_iso]
  rw [readScalar_of_no_number htrue hfalse hnumber, if_pos hdate]

theorem readDate_date (d : Date) : readDate d.iso = .ok (.date d) := by
  have hdate := Iso.date_iso d []
  rw [List.append_nil] at hdate
  rw [readDate, if_pos d.length_iso, hdate]
  rfl

theorem readDate_dateTime (t : DateTime) : readDate t.iso = .ok (.dateTime t.reread) := by
  have hlength : t.iso.length ≠ 10 := by
    rw [t.iso_eq, List.length_append, t.date.length_iso, List.length_cons]
    omega
  rw [readDate, if_neg hlength, Iso.dateTime_iso]
  rfl

theorem numberValue_int {n : Int} (h : (natDigits n.natAbs).length ≤ digitLimit) :
    numberValue (decide (n < 0)) (natDigits n.natAbs) none = .ok (.int n) := by
  have hnatural : Numeral.natural (natDigits n.natAbs) = .ok n.natAbs := by
    rw [Numeral.natural, if_neg (Nat.not_lt.2 h), digitsValue_natDigits]
  have hsigned : (if decide (n < 0) = true then -(n.natAbs : Int) else n.natAbs) = n := by
    by_cases hn : n < 0
    · rw [if_pos (decide_eq_true hn)]
      omega
    · rw [if_neg (mt of_decide_eq_true hn)]
      omega
  rw [numberValue, Numeral.signedInteger, hnatural]
  show Except.ok (Value.int (if decide (n < 0) = true then -(n.natAbs : Int) else n.natAbs)) = _
  rw [hsigned]

theorem readScalar_float {x : Double} (hfinite : x.isFinite = true) (he : 'e' ∉ x.text) :
    readScalar x.text = .ok (.float x) := by
  cases x with
  | finite negative units hunits =>
      obtain ⟨whole, fraction, htext, hpoint, hvalue⟩ :=
        NumberFormat.exists_point_of_write NumberFormat.readable_plain he
      have hparts : numberParts? (dropFinalNewline (Double.finite negative units hunits).text) =
          some (negative, whole, some fraction) := by
        rw [(isBare_float hfinite).dropFinalNewline_eq, Double.text, htext]
        exact numberParts?_point negative hpoint
      rw [readScalar_of_number hparts, numberValue, hvalue]
  | infinite negative => cases hfinite
  | nan => cases hfinite

/-- A scalar is read as it was written, but for too fine an offset. -/
theorem readScalar_write {v : Value} (h : v.LegibleScalar) :
    readScalar (write v) = .ok v.rereadScalar := by
  have hbare := isBare_write h
  cases v with
  | bool b => cases b <;> rfl
  | int n =>
      refine (readScalar_of_number ?_).trans (numberValue_int h)
      rw [hbare.dropFinalNewline_eq]
      exact numberParts?_intDigits n
  | float x => exact readScalar_float h.1 h.2
  | date d =>
      have hiso : IsBare (d.iso ++ []) := by
        rw [List.append_nil]
        exact hbare
      have hread := readScalar_iso d hiso
      rw [List.append_nil] at hread
      exact hread.trans (readDate_date d)
  | dateTime t =>
      have hiso : IsBare t.iso := hbare
      rw [t.iso_eq] at hiso
      have hread := readScalar_iso t.date hiso
      rw [← t.iso_eq] at hread
      exact hread.trans (readDate_dateTime t)
  | _ => exact h.elim

theorem writeItems_eq (items : List Value) :
    writeItems items = join ", ".toList (items.map write) := by
  induction items with
  | nil => rfl
  | cons item more ih =>
      cases more with
      | nil => rfl
      | cons next more =>
          rw [writeItems, ih]
          · rfl
          · exact List.cons_ne_nil _ _

theorem mapM_read_write {items : List Value} (h : ∀ item ∈ items, item.LegibleScalar) :
    (items.map write).mapM read = .ok (items.map Value.rereadScalar) := by
  induction items with
  | nil => rfl
  | cons item more ih =>
      obtain ⟨hitem, hmore⟩ := List.forall_mem_cons.1 h
      rw [List.map_cons, List.mapM_cons, (isBare_write hitem).read_eq, readScalar_write hitem,
        ih hmore]
      rfl

/-- A list is read as it was written. -/
theorem read_write_tuple {items : List Value} (h : ∀ item ∈ items, item.LegibleScalar) :
    read (write (.tuple items)) = .ok (.tuple (items.map Value.rereadScalar)) := by
  have htext : write (.tuple items) = '[' :: (join ", ".toList (items.map write) ++ [']']) := by
    rw [write, writeItems_eq, List.cons_append]
  by_cases hne : items = []
  · -- Without items there is no text between the brackets, and nothing is read there.
    subst hne
    have hbracketed : bracketed? (core (write (.tuple []))) = some [] := by decide
    exact read_of_bracketed? hbracketed
  · have hbare : ∀ text ∈ items.map write, IsBare text :=
      List.forall_mem_map.2 fun item hitem => isBare_write (h item hitem)
    rw [htext, read_bare_listing (mt List.map_eq_nil_iff.1 hne) hbare, mapM_read_write h]
    rfl

/-- What plans show of a value is read as the value, but for too fine an offset. -/
theorem read_write {v : Value} (h : v.Legible) : read (write v) = .ok v.reread := by
  by_cases htuple : ∃ items, v = .tuple items
  · obtain ⟨items, rfl⟩ := htuple
    exact read_write_tuple h
  · have hne : ∀ items, v ≠ .tuple items := fun items hitems => htuple ⟨items, hitems⟩
    have hscalar := (Value.legible_of_ne hne).1 h
    rw [(isBare_write hscalar).read_eq, readScalar_write hscalar, Value.reread_of_ne hne]

/-- Values that plans show are read back, with blanks around them or without, exactly if no offset
of less than a second stands in them. -/
theorem read_back_iff {v : Value} (h : v.Legible) {lead trail : List Char}
    (hlead : ∀ c ∈ lead, isBlank c = true) (htrail : ∀ c ∈ trail, isBlank c = true) :
    read (lead ++ write v ++ trail) = .ok v ↔ ¬ v.HasPart Value.IsFinelyOffset := by
  have hstrip : strip (lead ++ write v ++ trail) = strip (write v) := by
    rw [List.append_assoc, strip_blanks_append hlead, strip_append_blanks htrail]
  rw [read_congr_of_strip hstrip, read_write h, Except.ok.injEq, Value.reread_eq_self_iff h]

/-- A leap day, and an hour of it on a clock west of Greenwich, stand in a list. -/
theorem read_back_leap_day :
    let day : Date := ⟨2024, 2, 29, by decide⟩
    let time : DateTime :=
      ⟨day, 10, 0, 0, 250000, some ⟨-19800000000, by decide⟩, by decide⟩
    let v : Value :=
      .tuple [.bool true, .int (-5), .float (.ofDecimal true 5 (-1)), .date day, .dateTime time]
    v.Legible ∧ write v =
        "[true, -5, -0.5, 2024-02-29, 2024-02-29T10:00:00.250000-05:30]".toList ∧
      (∀ c ∈ " \t".toList, isBlank c = true) ∧ (∀ c ∈ ['\n'], isBlank c = true) ∧
      read (" \t".toList ++ write v ++ ['\n']) = .ok v := by
  intro day time v
  have hint : (natDigits (-5 : Int).natAbs).length ≤ digitLimit := by decide +kernel
  have hfloat : (Double.ofDecimal true 5 (-1)).text = "-0.5".toList := by decide +kernel
  have hfinite : (Double.ofDecimal true 5 (-1)).isFinite = true := by decide +kernel
  have hmark : 'e' ∉ (Double.ofDecimal true 5 (-1)).text := by
    rw [hfloat]
    decide
  have hlegible : v.Legible := by
    show ∀ item ∈ [_, _, _, _, _], Value.LegibleScalar item
    simp only [List.forall_mem_cons]
    exact ⟨trivial, hint, ⟨hfinite, hmark⟩, trivial, trivial, fun _ hitem => nomatch hitem⟩
  have hlead : ∀ c ∈ " \t".toList, isBlank c = true := List.all_iff_forall_prop.1 (by decide)
  have htrail : ∀ c ∈ ['\n'], isBlank c = true := List.all_iff_forall_prop.1 (by decide)
  have hfine : ¬ v.HasPart Value.IsFinelyOffset := (Value.reread_eq_self_iff hlegible).1 rfl
  have htext : write v =
      "[true, -5, -0.5, 2024-02-29, 2024-02-29T10:00:00.250000-05:30]".toList := by
    simp only [v, write, writeItems, Value.plain, Value.shown, hfloat]
    decide +kernel
  exact ⟨hlegible, htext, hlead, htrail, (read_back_iff hlegible hlead htrail).2 hfine⟩

/-- An offset of a microsecond is written, but not read. -/
theorem read_ne_of_microsecond :
    let time : DateTime :=
      ⟨⟨2024, 1, 1, by decide⟩, 0, 0, 0, 0, some ⟨1, by decide⟩, by decide⟩
    (Value.dateTime time).Legible ∧
      write (.dateTime time) = "2024-01-01T00:00:00+00:00:00.000001".toList ∧
      read (write (.dateTime time)) = .ok (.dateTime { time with offset? := some .utc }) ∧
      read (write (.dateTime time)) ≠ .ok (.dateTime time) := by
  intro time
  have hread : read (write (.dateTime time)) = .ok (.dateTime { time with offset? := some .utc }) :=
    read_write (v := .dateTime time) trivial
  refine ⟨trivial, by decide +kernel, hread, fun hself => ?_⟩
  have htime := Value.dateTime.inj (Except.ok.inj (hread.symm.trans hself))
  exact absurd htime (by decide +kernel)

end Literal

end PropertyGraph
