import Mathlib.Data.List.Induction
import Mathlib.Tactic.Ring
import PropertyGraph.Text.Digit

/-!
Decimal digits are read as the number they write, with or without zeros before them. So no two
numbers have the same digits, and no two integers the same text.
-/

namespace PropertyGraph.Text

theorem digitValue?_digitChar {n : Nat} (h : n < 10) : digitValue? (digitChar n) = some n := by
  have hall : ∀ d : Fin 10, digitValue? (digitChar d) = some d.val := by decide
  exact hall ⟨n, h⟩

/-- The digits that are written. -/
def asciiDigits : List Char := "0123456789".toList

theorem digitChar_mem_asciiDigits {n : Nat} (h : n < 10) : digitChar n ∈ asciiDigits := by
  have hall : ∀ d : Fin 10, digitChar d ∈ asciiDigits := by decide
  exact hall ⟨n, h⟩

theorem isDigit_of_mem_asciiDigits {c : Char} (h : c ∈ asciiDigits) : isDigit c = true := by
  have hall : asciiDigits.all isDigit = true := by decide
  exact List.all_eq_true.1 hall c h

theorem natDigits_of_lt {n : Nat} (h : n < 10) : natDigits n = [digitChar n] := by
  rw [natDigits, if_pos h]

theorem natDigits_of_ge {n : Nat} (h : 10 ≤ n) :
    natDigits n = natDigits (n / 10) ++ [digitChar (n % 10)] := by
  rw [natDigits, if_neg (by omega)]

theorem intDigits_natCast (n : Nat) : intDigits n = natDigits n := by
  rw [intDigits, if_neg (by omega), Int.natAbs_natCast]

/-- Digits are induced on from the last one. -/
theorem natDigits_induction {motive : Nat → Prop} (small : ∀ n, n < 10 → motive n)
    (large : ∀ n, 10 ≤ n → motive (n / 10) → motive n) (n : Nat) : motive n := by
  induction n using Nat.strongRecOn with
  | _ n ih =>
      by_cases h : n < 10
      · exact small n h
      · exact large n (by omega) (ih (n / 10) (by omega))

theorem natDigits_ne_nil (n : Nat) : natDigits n ≠ [] := by
  rw [natDigits]
  split <;> simp

theorem take_natDigits_ne_nil (n : Nat) {count : Nat} (h : 0 < count) :
    (natDigits n).take count ≠ [] := by
  rw [Ne, List.take_eq_nil_iff]
  rintro (hzero | hnil)
  · omega
  · exact natDigits_ne_nil n hnil

theorem mem_asciiDigits_of_mem_natDigits {n : Nat} {c : Char} (h : c ∈ natDigits n) :
    c ∈ asciiDigits := by
  induction n using natDigits_induction with
  | small n hn =>
      rw [natDigits_of_lt hn, List.mem_singleton] at h
      rw [h]
      exact digitChar_mem_asciiDigits hn
  | large n hn ih =>
      rw [natDigits_of_ge hn, List.mem_append, List.mem_singleton] at h
      rcases h with h | h
      · exact ih h
      · rw [h]
        exact digitChar_mem_asciiDigits (Nat.mod_lt n (by decide))

theorem digitsValue_concat (digits : List Char) (c : Char) :
    digitsValue (digits ++ [c]) = 10 * digitsValue digits + (digitValue? c).getD 0 :=
  List.foldl_append

theorem digitsValue_append (first second : List Char) :
    digitsValue (first ++ second) =
      digitsValue first * 10 ^ second.length + digitsValue second := by
  induction second using List.reverseRecOn with
  | nil => simp [digitsValue]
  | append_singleton second c ih =>
      rw [← List.append_assoc, digitsValue_concat, digitsValue_concat, ih, List.length_append,
        List.length_singleton, Nat.pow_succ]
      ring

@[simp] theorem digitsValue_natDigits (n : Nat) : digitsValue (natDigits n) = n := by
  induction n using natDigits_induction with
  | small n hn =>
      rw [natDigits_of_lt hn]
      simp [digitsValue, digitValue?_digitChar hn]
  | large n hn ih =>
      rw [natDigits_of_ge hn, digitsValue_concat, ih,
        digitValue?_digitChar (Nat.mod_lt n (by decide)), Option.getD_some]
      exact Nat.div_add_mod n 10

theorem natDigits_inj {m n : Nat} (h : natDigits m = natDigits n) : m = n := by
  rw [← digitsValue_natDigits m, h, digitsValue_natDigits]

/-- The length of the digits counts the powers of ten up to the number. -/
theorem length_natDigits_le {n width : Nat} (hwidth : 0 < width) (h : n < 10 ^ width) :
    (natDigits n).length ≤ width := by
  induction n using natDigits_induction generalizing width with
  | small n hn =>
      rw [natDigits_of_lt hn]
      exact hwidth
  | large n hn ih =>
      obtain ⟨width, rfl⟩ := Nat.exists_eq_succ_of_ne_zero hwidth.ne'
      rw [Nat.pow_succ] at h
      have hpos : 0 < width := by
        rcases Nat.eq_zero_or_pos width with rfl | hpos
        · omega
        · exact hpos
      have hlength := ih hpos (by omega)
      rw [natDigits_of_ge hn, List.length_append, List.length_singleton]
      omega

theorem digitsValue_replicate_zero (count : Nat) :
    digitsValue (List.replicate count '0') = 0 := by
  induction count with
  | zero => rfl
  | succ count ih =>
      rw [List.replicate_succ', digitsValue_concat, ih]
      decide

theorem digitsValue_zeros_append (count : Nat) (digits : List Char) :
    digitsValue (List.replicate count '0' ++ digits) = digitsValue digits := by
  rw [digitsValue_append, digitsValue_replicate_zero, Nat.zero_mul, Nat.zero_add]

theorem digitsValue_append_zeros (digits : List Char) (count : Nat) :
    digitsValue (digits ++ List.replicate count '0') = digitsValue digits * 10 ^ count := by
  rw [digitsValue_append, digitsValue_replicate_zero, List.length_replicate, Nat.add_zero]

@[simp] theorem digitsValue_paddedDigits (width n : Nat) :
    digitsValue (paddedDigits width n) = n := by
  rw [paddedDigits, digitsValue_zeros_append, digitsValue_natDigits]

theorem mem_asciiDigits_of_mem_zero {c : Char} (h : c ∈ ['0']) : c ∈ asciiDigits := by
  rw [List.mem_singleton.1 h]
  decide

theorem mem_asciiDigits_of_mem_zeros {count : Nat} {c : Char}
    (h : c ∈ List.replicate count '0') : c ∈ asciiDigits := by
  rw [List.eq_of_mem_replicate h]
  decide

theorem mem_asciiDigits_of_mem_paddedDigits {width n : Nat} {c : Char}
    (h : c ∈ paddedDigits width n) : c ∈ asciiDigits := by
  rcases List.mem_append.1 h with h | h
  · exact mem_asciiDigits_of_mem_zeros h
  · exact mem_asciiDigits_of_mem_natDigits h

theorem paddedDigits_ne_nil (width n : Nat) : paddedDigits width n ≠ [] :=
  List.append_ne_nil_of_right_ne_nil _ (natDigits_ne_nil n)

theorem length_paddedDigits {width n : Nat} (hwidth : 0 < width) (h : n < 10 ^ width) :
    (paddedDigits width n).length = width := by
  have hlength := length_natDigits_le hwidth h
  rw [paddedDigits, List.length_append, List.length_replicate]
  omega

theorem paddedDigits_inj {width m n : Nat} (h : paddedDigits width m = paddedDigits width n) :
    m = n := by
  rw [← digitsValue_paddedDigits width m, h, digitsValue_paddedDigits]

theorem digitsValue_lt (digits : List Char) : digitsValue digits < 10 ^ digits.length := by
  induction digits using List.reverseRecOn with
  | nil => decide
  | append_singleton digits c ih =>
      have hdigit : (digitValue? c).getD 0 < 10 := by
        cases hc : digitValue? c with
        | none => decide
        | some n => exact digitValue?_lt hc
      rw [digitsValue_concat, List.length_append, List.length_singleton, Nat.pow_succ]
      omega

theorem digitChar_of_mem_asciiDigits {c : Char} (h : c ∈ asciiDigits) :
    ∃ n < 10, digitValue? c = some n ∧ digitChar n = c := by
  have hall : asciiDigits = (List.range 10).map digitChar := by decide
  rw [hall] at h
  obtain ⟨n, hn, rfl⟩ := List.mem_map.1 h
  have hlt : n < 10 := List.mem_range.1 hn
  exact ⟨n, hlt, digitValue?_digitChar hlt, rfl⟩

theorem natDigits_zero : natDigits 0 = ['0'] := natDigits_of_lt (by decide)

/-- Digits that do not begin with a zero are those of the number they write. -/
theorem natDigits_digitsValue {digits : List Char} (hne : digits ≠ [])
    (hdigits : ∀ c ∈ digits, c ∈ asciiDigits) (hzero : digits.head? = some '0' → digits = ['0']) :
    natDigits (digitsValue digits) = digits := by
  induction digits using List.reverseRecOn with
  | nil => exact absurd rfl hne
  | append_singleton front c ih =>
      obtain ⟨hfront, hlast⟩ := List.forall_mem_append.1 hdigits
      obtain ⟨n, hn, hvalue, hchar⟩ := digitChar_of_mem_asciiDigits (hlast c List.mem_cons_self)
      rw [digitsValue_concat, hvalue, Option.getD_some]
      by_cases hnil : front = []
      · rw [hnil, show 10 * digitsValue [] + n = n from Nat.zero_add n, natDigits_of_lt hn, hchar]
        rfl
      · have hhead : front.head? ≠ some '0' := by
          intro h
          have hwhole := hzero (by rw [List.head?_append, h]; rfl)
          exact hnil (List.append_eq_singleton_iff.1 hwhole |>.elim And.left
            fun h => nomatch h.2)
        have hsame := ih hnil hfront fun h => absurd h hhead
        -- A number whose digits do not begin with a zero is not zero.
        have hpos : 0 < digitsValue front := by
          refine Nat.pos_of_ne_zero fun h => hhead ?_
          rw [← hsame, h, natDigits_zero]
          rfl
        have hdiv : (10 * digitsValue front + n) / 10 = digitsValue front := by omega
        have hmod : (10 * digitsValue front + n) % 10 = n := by omega
        rw [natDigits_of_ge (by omega), hdiv, hmod, hsame, hchar]

/-- The digits of a number begin with a zero only if they are this zero. -/
theorem eq_zero_of_head_natDigits {n : Nat} (h : (natDigits n).head? = some '0') :
    natDigits n = ['0'] := by
  induction n using natDigits_induction with
  | small n hn =>
      rw [natDigits_of_lt hn] at h ⊢
      rw [Option.some.inj h]
  | large n hn ih =>
      have hhead : (natDigits (n / 10)).head? = some '0' := by
        rw [natDigits_of_ge hn] at h
        cases hdigits : natDigits (n / 10) with
        | nil => exact absurd hdigits (natDigits_ne_nil _)
        | cons d rest =>
            rw [hdigits] at h
            exact h
      have hzero : n / 10 = 0 := natDigits_inj ((ih hhead).trans natDigits_zero.symm)
      omega

theorem minus_notMem_natDigits (n : Nat) : '-' ∉ natDigits n := fun h =>
  absurd (mem_asciiDigits_of_mem_natDigits h) (by decide)

theorem mem_intDigits {n : Int} {c : Char} (h : c ∈ intDigits n) : c ∈ '-' :: asciiDigits := by
  unfold intDigits at h
  split at h
  · rcases List.mem_cons.1 h with rfl | h
    · exact List.mem_cons_self
    · exact List.mem_cons_of_mem _ (mem_asciiDigits_of_mem_natDigits h)
  · exact List.mem_cons_of_mem _ (mem_asciiDigits_of_mem_natDigits h)

theorem intDigits_ne_nil (n : Int) : intDigits n ≠ [] := by
  unfold intDigits
  split
  · exact List.cons_ne_nil _ _
  · exact natDigits_ne_nil _

theorem intDigits_inj {m n : Int} (h : intDigits m = intDigits n) : m = n := by
  unfold intDigits at h
  split at h <;> split at h
  · have hdigits := natDigits_inj (List.cons.inj h).2
    omega
  · exact absurd (h ▸ List.mem_cons_self) (minus_notMem_natDigits _)
  · exact absurd (h.symm ▸ List.mem_cons_self) (minus_notMem_natDigits _)
  · have hdigits := natDigits_inj h
    omega

end PropertyGraph.Text
