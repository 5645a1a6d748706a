import Mathlib.Data.Bool.AllAny
import PropertyGraph.Number.Numeral
import PropertyGraph.Proofs.Number.Decimal
import PropertyGraph.Proofs.Text.Digit
import PropertyGraph.Proofs.Text.Split

/-!
What is written of a binary64 number is read as that number, positional or with an exponent, so no
two numbers have one text.
-/

namespace PropertyGraph

namespace Text

/-- All the digits of a text come before its first character that is none. -/
theorem span_isDigit {digits rest : List Char} (hdigits : ∀ c ∈ digits, c ∈ asciiDigits)
    (hrest : ∀ c ∈ rest.head?, isDigit c = false) :
    (digits ++ rest).span isDigit = (digits, rest) :=
  span_append (fun c hc => isDigit_of_mem_asciiDigits (hdigits c hc)) hrest

end Text

namespace Numeral

open Text

theorem decimal_whole (negative : Bool) {whole : List Char} (hne : whole ≠ [])
    (hwhole : ∀ c ∈ whole, c ∈ asciiDigits) (rest : List Char)
    (hrest : ∀ c ∈ rest.head?, isDigit c = false ∧ c ≠ '.') :
    decimal negative (whole ++ rest) =
      (exponent rest).map fun e => Double.ofDecimal negative (digitsValue whole) e := by
  have hspan := span_isDigit hwhole (fun c hc => (hrest c hc).1)
  have hempty : whole.isEmpty = false := by simpa using hne
  unfold decimal
  rw [hspan]
  cases rest with
  | nil => simp [hempty]
  | cons c rest =>
      have hc : c ≠ '.' := (hrest c rfl).2
      simp [hempty, hc]

theorem decimal_fraction (negative : Bool) (whole fraction rest : List Char) (hne : whole ≠ [])
    (hwhole : ∀ c ∈ whole, c ∈ asciiDigits) (hfraction : ∀ c ∈ fraction, c ∈ asciiDigits)
    (hrest : ∀ c ∈ rest.head?, isDigit c = false) :
    decimal negative (whole ++ '.' :: (fraction ++ rest)) =
      (exponent rest).map fun e =>
        Double.ofDecimal negative (digitsValue (whole ++ fraction)) (e - fraction.length) := by
  have hpoint : isDigit '.' = false := by decide
  have hspan : (whole ++ '.' :: (fraction ++ rest)).span isDigit =
      (whole, '.' :: (fraction ++ rest)) :=
    span_isDigit hwhole (fun c hc => by obtain rfl := Option.some.inj hc; exact hpoint)
  have hempty : whole.isEmpty = false := by simpa using hne
  unfold decimal
  simp only [hspan, span_isDigit hfraction hrest]
  simp [hempty]

theorem exponent_of_digits {digits : List Char} (hne : digits ≠ [])
    (hdigits : ∀ c ∈ digits, c ∈ asciiDigits) (e : Int) (he : digitsValue digits = e.natAbs) :
    exponent ('e' :: (if e < 0 then '-' else '+') :: digits) = some e := by
  have hempty : digits.isEmpty = false := by simpa using hne
  have hall : digits.all isDigit = true :=
    List.all_eq_true.2 fun c hc => isDigit_of_mem_asciiDigits (hdigits c hc)
  unfold exponent
  split
  next h => cases h
  next mark rest h =>
    obtain ⟨rfl, rfl⟩ := List.cons.inj h
    by_cases hneg : e < 0
    · have hvalue : -(digitsValue digits : Int) = e := by omega
      simp [hneg, sign, hempty, hall, hvalue]
    · have hvalue : (digitsValue digits : Int) = e := by omega
      simp [hneg, sign, hempty, hall, hvalue]

theorem ofDecimal_eq (negative : Bool) (digits : Nat) (exponent : Int) :
    Double.ofDecimal negative digits exponent =
      Double.ofUnits negative (Decimal.units ⟨digits, exponent⟩) :=
  Decimal.toDouble_eq negative ⟨digits, exponent⟩

/-- Without an exponent the digits are those of a decimal with as many places as stand after the
point. -/
theorem decimal_point (negative : Bool) (whole fraction : List Char) (hne : whole ≠ [])
    (hwhole : ∀ c ∈ whole, c ∈ asciiDigits) (hfraction : ∀ c ∈ fraction, c ∈ asciiDigits) :
    decimal negative (whole ++ '.' :: fraction) =
      some (Double.ofUnits negative
        (Decimal.units ⟨digitsValue (whole ++ fraction), -fraction.length⟩)) := by
  have hend : ∀ c ∈ ([] : List Char).head?, isDigit c = false := fun c hc => by cases hc
  have hread := decimal_fraction negative whole fraction [] hne hwhole hfraction hend
  rw [List.append_nil] at hread
  rw [hread, exponent, Option.map_some, Int.zero_sub, ofDecimal_eq]

theorem decimal_zeros_before (negative : Bool) (n count : Nat) :
    decimal negative ('0' :: '.' :: List.replicate count '0' ++ natDigits n) =
      some (Double.ofUnits negative
        (Decimal.units ⟨n, -(count + (natDigits n).length : Nat)⟩)) := by
  have hfraction : ∀ c ∈ List.replicate count '0' ++ natDigits n, c ∈ asciiDigits := by
    intro c hc
    rcases List.mem_append.1 hc with hc | hc
    · exact mem_asciiDigits_of_mem_zeros hc
    · exact mem_asciiDigits_of_mem_natDigits hc
  have hzero : digitsValue ['0'] = 0 := by decide
  have hread := decimal_point negative ['0'] _ (List.cons_ne_nil _ _)
    (fun c => mem_asciiDigits_of_mem_zero) hfraction
  rw [digitsValue_append, digitsValue_zeros_append, digitsValue_natDigits, hzero, Nat.zero_mul,
    Nat.zero_add, List.length_append, List.length_replicate] at hread
  exact hread

theorem decimal_zeros_after (negative : Bool) (n count : Nat) :
    decimal negative (natDigits n ++ List.replicate count '0' ++ ['.', '0']) =
      some (Double.ofUnits negative (Decimal.units ⟨n, count⟩)) := by
  have hwhole : ∀ c ∈ natDigits n ++ List.replicate count '0', c ∈ asciiDigits := by
    intro c hc
    rcases List.mem_append.1 hc with hc | hc
    · exact mem_asciiDigits_of_mem_natDigits hc
    · exact mem_asciiDigits_of_mem_zeros hc
  have hzeros : List.replicate count '0' ++ ['0'] = List.replicate (count + 1) '0' :=
    List.replicate_succ'.symm
  have hvalue : digitsValue (natDigits n ++ List.replicate count '0' ++ ['0']) =
      n * 10 ^ (count + 1) := by
    rw [List.append_assoc, hzeros, digitsValue_append_zeros, digitsValue_natDigits]
  have hexponent : -((1 : Nat) : Int) + (count + 1 : Nat) = count := by omega
  have hread := decimal_point negative _ ['0']
    (List.append_ne_nil_of_left_ne_nil (natDigits_ne_nil n) _) hwhole
    (fun c => mem_asciiDigits_of_mem_zero)
  rw [hvalue, Decimal.units_append_zeros, List.length_singleton, hexponent] at hread
  exact hread

theorem decimal_split (negative : Bool) (n : Nat) {count : Nat} (h : 0 < count) :
    decimal negative ((natDigits n).take count ++ '.' :: (natDigits n).drop count) =
      some (Double.ofUnits negative
        (Decimal.units ⟨n, -((natDigits n).length - count : Nat)⟩)) := by
  have hread := decimal_point negative _ ((natDigits n).drop count) (take_natDigits_ne_nil n h)
    (fun c hc => mem_asciiDigits_of_mem_natDigits (List.mem_of_mem_take hc))
    (fun c hc => mem_asciiDigits_of_mem_natDigits (List.mem_of_mem_drop hc))
  rw [List.take_append_drop, digitsValue_natDigits, List.length_drop] at hread
  exact hread

/-- Wherever the point stands, and whatever zeros fill the gap to it, the digits are read as the
same decimal. -/
theorem decimal_positional {format : NumberFormat} (hwhole : format.wholeEnding = ['.', '0'])
    (negative : Bool) (n : Nat) (places : Int) :
    decimal negative (format.positional (natDigits n) places) =
      some (Double.ofUnits negative (Decimal.units ⟨n, places - (natDigits n).length⟩)) := by
  unfold NumberFormat.positional
  split
  case isTrue hlow =>
    rw [decimal_zeros_before]
    congr 4
    omega
  case isFalse hpositive =>
    split
    case isTrue hlong =>
      rw [hwhole, decimal_zeros_after]
      congr 4
      omega
    case isFalse hshort =>
      rw [decimal_split negative n (by omega)]
      congr 4
      omega

theorem decimal_scientific (format : NumberFormat) (negative : Bool) (n : Nat) (e : Int) :
    decimal negative (format.scientific (natDigits n) e) =
      some (Double.ofUnits negative (Decimal.units ⟨n, e - ((natDigits n).length - 1 : Nat)⟩)) := by
  have hdigits : ∀ c ∈ natDigits n, c ∈ asciiDigits := fun c =>
    mem_asciiDigits_of_mem_natDigits
  have hmark : isDigit 'e' = false := by decide
  have hexponent := exponent_of_digits (paddedDigits_ne_nil format.exponentWidth e.natAbs)
    (fun c => mem_asciiDigits_of_mem_paddedDigits) e (digitsValue_paddedDigits _ _)
  have hne : (natDigits n).take 1 ≠ [] := take_natDigits_ne_nil n Nat.one_pos
  unfold NumberFormat.scientific
  split
  case isTrue hone =>
    -- A single digit has no point after it.
    have htake : (natDigits n).take 1 = natDigits n := List.take_of_length_le hone
    rw [htake, List.append_nil, List.append_assoc]
    have hread := decimal_whole negative (natDigits_ne_nil n) hdigits
      ('e' :: (if e < 0 then '-' else '+') :: paddedDigits format.exponentWidth e.natAbs)
      (fun c hc => by obtain rfl := Option.some.inj hc; exact ⟨hmark, by decide⟩)
    refine hread.trans ?_
    rw [hexponent, Option.map_some, digitsValue_natDigits, ofDecimal_eq]
    congr 4
    omega
  case isFalse hmany =>
    have hread := decimal_fraction negative _ ((natDigits n).drop 1)
      ('e' :: (if e < 0 then '-' else '+') :: paddedDigits format.exponentWidth e.natAbs) hne
      (fun c hc => hdigits c (List.mem_of_mem_take hc))
      (fun c hc => hdigits c (List.mem_of_mem_drop hc))
      (fun c hc => by obtain rfl := Option.some.inj hc; exact hmark)
    rw [List.append_assoc, List.append_assoc]
    refine hread.trans ?_
    rw [hexponent, Option.map_some, List.take_append_drop, digitsValue_natDigits, ofDecimal_eq,
      List.length_drop]

/-- The text of a decimal is read as the decimal. -/
theorem decimal_decimal {format : NumberFormat} (hwhole : format.wholeEnding = ['.', '0'])
    (negative : Bool) (d : Decimal) :
    decimal negative (format.decimal d) = some (Double.ofUnits negative d.units) := by
  unfold NumberFormat.decimal
  dsimp only
  split
  · rw [decimal_positional hwhole, ← Decimal.units_trim d]
    congr 4
    omega
  · have hpos := List.length_pos_iff.2 (natDigits_ne_nil d.trim.digits)
    rw [decimal_scientific, ← Decimal.units_trim d]
    congr 4
    omega

end Numeral

/-- The characters of the text of a finite number. -/
def numeralChars : List Char := "0123456789.e+-".toList

/-- A text of such characters that begins with a digit. -/
structure IsNumeral (text : List Char) : Prop where
  head : ∃ c ∈ Text.asciiDigits, text.head? = some c
  chars : ∀ c ∈ text, c ∈ numeralChars

namespace IsNumeral

open Text

theorem mem_of_digit {c : Char} (h : c ∈ asciiDigits) : c ∈ numeralChars := by
  have hall : ∀ c ∈ asciiDigits, c ∈ numeralChars := List.all_iff_forall_prop.1 (by decide)
  exact hall c h

theorem of_digits {digits rest : List Char} (hne : digits ≠ [])
    (hdigits : ∀ c ∈ digits, c ∈ asciiDigits) (hrest : ∀ c ∈ rest, c ∈ numeralChars) :
    IsNumeral (digits ++ rest) := by
  obtain ⟨c, digits, rfl⟩ := List.exists_cons_of_ne_nil hne
  refine ⟨⟨c, hdigits c List.mem_cons_self, rfl⟩, ?_⟩
  intro d hd
  rcases List.mem_append.1 hd with hd | hd
  · exact mem_of_digit (hdigits d hd)
  · exact hrest d hd

theorem positional {format : NumberFormat} (hwhole : format.wholeEnding = ['.', '0']) (n : Nat)
    (places : Int) : IsNumeral (format.positional (natDigits n) places) := by
  have hdigits : ∀ c ∈ natDigits n, c ∈ asciiDigits := fun c =>
    mem_asciiDigits_of_mem_natDigits
  unfold NumberFormat.positional
  split
  · show IsNumeral (['0'] ++ '.' :: (List.replicate (-places).toNat '0' ++ natDigits n))
    refine of_digits (List.cons_ne_nil _ _) (fun c => mem_asciiDigits_of_mem_zero) ?_
    intro c hc
    rcases List.mem_cons.1 hc with rfl | hc
    · decide
    · rcases List.mem_append.1 hc with hc | hc
      · exact mem_of_digit (mem_asciiDigits_of_mem_zeros hc)
      · exact mem_of_digit (hdigits c hc)
  · split
    · rw [hwhole, List.append_assoc]
      refine of_digits (natDigits_ne_nil n) hdigits ?_
      intro c hc
      rcases List.mem_append.1 hc with hc | hc
      · exact mem_of_digit (mem_asciiDigits_of_mem_zeros hc)
      · have hall : ∀ c ∈ ['.', '0'], c ∈ numeralChars := List.all_iff_forall_prop.1 (by decide)
        exact hall c hc
    · refine of_digits (take_natDigits_ne_nil n (by omega))
        (fun c hc => hdigits c (List.mem_of_mem_take hc)) ?_
      intro c hc
      rcases List.mem_cons.1 hc with rfl | hc
      · decide
      · exact mem_of_digit (hdigits c (List.mem_of_mem_drop hc))

theorem scientific (format : NumberFormat) (n : Nat) (e : Int) :
    IsNumeral (format.scientific (natDigits n) e) := by
  have hdigits : ∀ c ∈ natDigits n, c ∈ asciiDigits := fun c =>
    mem_asciiDigits_of_mem_natDigits
  unfold NumberFormat.scientific
  rw [List.append_assoc, List.append_assoc]
  refine of_digits (take_natDigits_ne_nil n Nat.one_pos)
    (fun c hc => hdigits c (List.mem_of_mem_take hc)) ?_
  intro c hc
  rcases List.mem_append.1 hc with hc | hc
  · split at hc
    · cases hc
    · rcases List.mem_cons.1 hc with rfl | hc
      · decide
      · exact mem_of_digit (hdigits c (List.mem_of_mem_drop hc))
  · rcases List.mem_append.1 hc with hc | hc
    · have hall : ∀ c ∈ ['e', if e < 0 then '-' else '+'], c ∈ numeralChars := by
        split <;> exact List.all_iff_forall_prop.1 (by decide)
      exact hall c hc
    · exact mem_of_digit (mem_asciiDigits_of_mem_paddedDigits hc)

theorem decimal {format : NumberFormat} (hwhole : format.wholeEnding = ['.', '0'])
    (d : Decimal) : IsNumeral (format.decimal d) := by
  unfold NumberFormat.decimal
  dsimp only
  split
  · exact positional hwhole _ _
  · exact scientific format _ _

end IsNumeral

namespace Numeral

open Text

theorem trim_eq_self {text : List Char} (h : ∀ c ∈ text, isSpacing c = false) :
    trim text = text := by
  have hdrop : ∀ other : List Char, (∀ c ∈ other, isSpacing c = false) →
      other.dropWhile isSpacing = other := by
    intro other hother
    cases other with
    | nil => rfl
    | cons c rest => simp [hother c List.mem_cons_self]
  rw [trim, hdrop text h, hdrop text.reverse (fun c hc => h c (List.mem_reverse.1 hc)),
    List.reverse_reverse]

theorem groupedAfter_of_notMem {previous : Char} {text : List Char} (hprevious : previous ≠ '_')
    (h : '_' ∉ text) : groupedAfter previous text = true := by
  induction text generalizing previous with
  | nil => simpa [groupedAfter] using hprevious
  | cons c rest ih =>
      rw [List.mem_cons, not_or] at h
      have hc : c ≠ '_' := Ne.symm h.1
      simp [groupedAfter, hc, hprevious, ih hc h.2]

theorem sign_of_digit (negative : Bool) {c : Char} (h : c ∈ asciiDigits) (rest : List Char) :
    sign (NumberFormat.sign negative ++ c :: rest) = (negative, c :: rest) := by
  have hdigits : ∀ c ∈ asciiDigits, c ≠ '-' ∧ c ≠ '+' := List.all_iff_forall_prop.1 (by decide)
  cases negative with
  | true => rfl
  | false => simp [NumberFormat.sign, sign, hdigits c h]

/-- No name of an infinity or a NaN begins with a digit. -/
theorem lower_ne_name {c : Char} (h : c ∈ asciiDigits) (rest : List Char) (name : String)
    (hname : name.toList.head?.all (· ∉ asciiDigits) = true) :
    String.ofList ((c :: rest).map Char.toLower) ≠ name := by
  rintro rfl
  have hlower : ∀ c ∈ asciiDigits, c.toLower ∈ asciiDigits :=
    List.all_iff_forall_prop.1 (by decide)
  rw [String.toList_ofList, List.map_cons] at hname
  exact of_decide_eq_true hname (hlower c h)

/-- A numeral with its sign is read as a decimal. -/
theorem double_of_isNumeral (negative : Bool) {text : List Char} (h : IsNumeral text) :
    double (NumberFormat.sign negative ++ text) = decimal negative text := by
  have hall : ∀ c ∈ numeralChars, isSpacing c = false ∧ c ≠ '_' :=
    List.all_iff_forall_prop.1 (by decide)
  have hchars : ∀ c ∈ NumberFormat.sign negative ++ text, c ∈ numeralChars := by
    intro c hc
    rcases List.mem_append.1 hc with hc | hc
    · cases negative with
      | false => cases hc
      | true =>
          rw [List.mem_singleton.1 hc]
          decide
    · exact h.chars c hc
  have hfilter : (NumberFormat.sign negative ++ text).filter (· != '_') =
      NumberFormat.sign negative ++ text :=
    List.filter_eq_self.2 fun c hc => by simpa using (hall c (hchars c hc)).2
  have hgrouped : grouped (NumberFormat.sign negative ++ text) = true :=
    groupedAfter_of_notMem (by decide) fun hmem => (hall _ (hchars _ hmem)).2 rfl
  obtain ⟨c, hc, hhead⟩ := h.head
  obtain ⟨rest, rfl⟩ : ∃ rest, text = c :: rest := by
    cases text with
    | nil => cases hhead
    | cons d rest => exact ⟨rest, by rw [Option.some.inj hhead]⟩
  have hinf := lower_ne_name hc rest "inf" (by decide)
  have hinfinity := lower_ne_name hc rest "infinity" (by decide)
  have hnan := lower_ne_name hc rest "nan" (by decide)
  unfold double
  dsimp only
  rw [trim_eq_self fun c hc => (hall c (hchars c hc)).1, hgrouped, hfilter,
    sign_of_digit negative hc]
  simp only [Bool.not_true, Bool.false_eq_true, if_false]
  rw [if_neg (not_or.2 ⟨hinf, hinfinity⟩), if_neg hnan]

end Numeral

namespace NumberFormat

/-- The format's own words are read as what they stand for. -/
structure Readable (format : NumberFormat) : Prop where
  whole : format.wholeEnding = ['.', '0']
  nan : Numeral.double format.nan = some .nan
  infinity : ∀ negative,
    Numeral.double (sign negative ++ format.infinity) = some (.infinite negative)

theorem readable_plain : plainFormat.Readable := ⟨rfl, by decide, by decide⟩

theorem readable_json : jsonFormat.Readable := ⟨rfl, by decide, by decide⟩

theorem isNumeral_write {format : NumberFormat} (h : format.Readable) (negative : Bool)
    {units : Nat} (hunits : Representable units) :
    ∃ text, format.write (.finite negative units hunits) = sign negative ++ text ∧
      IsNumeral text ∧ Numeral.decimal negative text = some (.finite negative units hunits) := by
  by_cases hzero : units = 0
  · subst hzero
    refine ⟨['0', '.', '0'], by simp [write, h.whole],
      ⟨⟨'0', by decide, rfl⟩, List.all_iff_forall_prop.1 (by decide)⟩, ?_⟩
    have hread := Numeral.decimal_fraction negative ['0'] ['0'] [] (List.cons_ne_nil _ _)
      (fun c => Text.mem_asciiDigits_of_mem_zero) (fun c => Text.mem_asciiDigits_of_mem_zero)
      (fun c hc => by cases hc)
    refine hread.trans ?_
    rw [Numeral.exponent, Option.map_some, Numeral.ofDecimal_eq, Decimal.units_of_zero (by decide),
      Double.ofUnits_of_representable hunits]
  · refine ⟨format.decimal (Decimal.shortest units), by simp [write, hzero],
      IsNumeral.decimal h.whole _, ?_⟩
    rw [Numeral.decimal_decimal h.whole, Decimal.units_shortest hunits,
      Double.ofUnits_of_representable hunits]

/-- Digits on both sides of a point. -/
structure IsPointed (whole fraction : List Char) : Prop where
  whole_ne_nil : whole ≠ []
  whole : ∀ c ∈ whole, c ∈ Text.asciiDigits
  fraction_ne_nil : fraction ≠ []
  fraction : ∀ c ∈ fraction, c ∈ Text.asciiDigits

theorem exists_point_of_positional {format : NumberFormat} (h : format.Readable) (n : Nat)
    (places : Int) :
    ∃ whole fraction, format.positional (Text.natDigits n) places = whole ++ '.' :: fraction ∧
      IsPointed whole fraction := by
  have hne := Text.natDigits_ne_nil n
  have hdigits : ∀ c ∈ Text.natDigits n, c ∈ Text.asciiDigits := fun c =>
    Text.mem_asciiDigits_of_mem_natDigits
  unfold positional
  split
  case isTrue =>
    exact ⟨['0'], _, rfl, List.cons_ne_nil _ _, fun c => Text.mem_asciiDigits_of_mem_zero,
      List.append_ne_nil_of_right_ne_nil _ hne,
      List.forall_mem_append.2 ⟨fun c => Text.mem_asciiDigits_of_mem_zeros, hdigits⟩⟩
  case isFalse hpositive =>
    split
    case isTrue =>
      rw [h.whole]
      exact ⟨_, ['0'], rfl, List.append_ne_nil_of_left_ne_nil hne _,
        List.forall_mem_append.2 ⟨hdigits, fun c => Text.mem_asciiDigits_of_mem_zeros⟩,
        List.cons_ne_nil _ _, fun c => Text.mem_asciiDigits_of_mem_zero⟩
    case isFalse hshort =>
      exact ⟨_, _, rfl, Text.take_natDigits_ne_nil n (by omega),
        fun c hc => hdigits c (List.mem_of_mem_take hc), by rw [Ne, List.drop_eq_nil_iff]; omega,
        fun c hc => hdigits c (List.mem_of_mem_drop hc)⟩

/-- Without an exponent a number is written as digits with a point between them, of which it is the
value. -/
theorem exists_point_of_write {format : NumberFormat} (h : format.Readable) {negative : Bool}
    {units : Nat} {hunits : Representable units}
    (he : 'e' ∉ format.write (.finite negative units hunits)) :
    ∃ whole fraction, format.write (.finite negative units hunits) =
        sign negative ++ (whole ++ '.' :: fraction) ∧ IsPointed whole fraction ∧
      Double.ofDecimal negative (Text.digitsValue (whole ++ fraction)) (-fraction.length) =
        .finite negative units hunits := by
  obtain ⟨whole, fraction, htext, hpoint⟩ : ∃ whole fraction,
      format.write (.finite negative units hunits) = sign negative ++ (whole ++ '.' :: fraction) ∧
        IsPointed whole fraction := by
    rw [write] at he ⊢
    split
    case isTrue =>
      exact ⟨['0'], ['0'], by rw [h.whole]; rfl, List.cons_ne_nil _ _,
        fun c => Text.mem_asciiDigits_of_mem_zero, List.cons_ne_nil _ _,
        fun c => Text.mem_asciiDigits_of_mem_zero⟩
    case isFalse hzero =>
      rw [if_neg hzero] at he
      unfold decimal at he ⊢
      dsimp only at he ⊢
      split
      case isTrue =>
        obtain ⟨whole, fraction, htext, hpoint⟩ := exists_point_of_positional h _ _
        exact ⟨whole, fraction, by rw [htext], hpoint⟩
      case isFalse hfar =>
        rw [if_neg hfar] at he
        exact absurd (by simp [scientific]) he
  obtain ⟨text, htext', -, hread⟩ := isNumeral_write h negative hunits
  obtain rfl := List.append_cancel_left (htext.symm.trans htext')
  rw [Numeral.decimal_point negative whole fraction hpoint.whole_ne_nil hpoint.whole
    hpoint.fraction] at hread
  exact ⟨whole, fraction, htext, hpoint,
    (Numeral.ofDecimal_eq negative _ _).trans (Option.some.inj hread)⟩

/-- What is written of a number is read as the number. -/
theorem double_write {format : NumberFormat} (h : format.Readable) (x : Double) :
    Numeral.double (format.write x) = some x := by
  cases x with
  | finite negative units hunits =>
      obtain ⟨text, hwrite, hnumeral, hread⟩ := isNumeral_write h negative hunits
      rw [hwrite, Numeral.double_of_isNumeral negative hnumeral, hread]
  | infinite negative => exact h.infinity negative
  | nan => exact h.nan

/-- No two numbers have the same text. -/
theorem write_inj {format : NumberFormat} (h : format.Readable) {x y : Double}
    (hxy : format.write x = format.write y) : x = y := by
  have hread := double_write h x
  rw [hxy, double_write h y] at hread
  exact (Option.some.inj hread).symm

end NumberFormat

end PropertyGraph
