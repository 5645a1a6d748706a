import Mathlib.Algebra.Group.Nat.Defs
import PropertyGraph.Json

/-!
Strings of JSON are self-delimiting: each character has an escape of its own, no escape begins
another one, and the closing mark begins none. So a string is determined by any text it begins.
-/

namespace PropertyGraph

namespace Text

theorem hexDigit_inj {m n : Nat} (hm : m < 16) (hn : n < 16) (h : hexDigit m = hexDigit n) :
    m = n := by
  have hall : ∀ a b : Fin 16, hexDigit a = hexDigit b → a = b := by decide
  exact congrArg Fin.val (hall ⟨m, hm⟩ ⟨n, hn⟩ h)

theorem length_hexDigits (width n : Nat) : (hexDigits width n).length = width := by
  induction width generalizing n with
  | zero => rfl
  | succ width ih => rw [hexDigits, List.length_append, ih, List.length_singleton]

theorem hexDigits_inj {width m n : Nat} (hm : m < 16 ^ width) (hn : n < 16 ^ width)
    (h : hexDigits width m = hexDigits width n) : m = n := by
  induction width generalizing m n with
  | zero => omega
  | succ width ih =>
      rw [Nat.pow_succ] at hm hn
      obtain ⟨hhigh, hlow⟩ := List.append_inj' h rfl
      have hdiv := ih (by omega) (by omega) hhigh
      have hmod := hexDigit_inj (Nat.mod_lt m (by decide)) (Nat.mod_lt n (by decide))
        (List.cons.inj hlow).1
      omega

end Text

namespace Json

open Text

theorem unitEscape_append_inj {m n : Nat} {first second : List Char} (hm : m < 0x10000)
    (hn : n < 0x10000) (h : unitEscape m ++ first = unitEscape n ++ second) :
    m = n ∧ first = second := by
  have hdigits := (List.cons.inj (List.cons.inj h).2).2
  obtain ⟨hunit, hrest⟩ := List.append_inj hdigits (by rw [length_hexDigits, length_hexDigits])
  exact ⟨hexDigits_inj hm hn hunit, hrest⟩

/-- The character that an escape of one letter stands for. -/
def letterEscaped : Char → Option Char
  | '"' => some '"'
  | '\\' => some '\\'
  | 'n' => some '\n'
  | 'r' => some '\r'
  | 't' => some '\t'
  | 'b' => some '\x08'
  | 'f' => some '\x0c'
  | _ => none

/-- The forms of an escaped character: itself, a letter, one UTF-16 unit or two. -/
inductive Escapes (c : Char) : List Char → Prop where
  | plain : c ≠ '"' → c ≠ '\\' → Escapes c [c]
  | letter (letter : Char) : letterEscaped letter = some c → Escapes c ['\\', letter]
  | unit : c.toNat < 0x10000 → Escapes c (unitEscape c.toNat)
  | pair : 0x10000 ≤ c.toNat →
      Escapes c (unitEscape (0xD800 + (c.toNat - 0x10000) / 0x400) ++
        unitEscape (0xDC00 + (c.toNat - 0x10000) % 0x400))

theorem escapes_escapedChar (c : Char) : Escapes c (escapedChar c) := by
  unfold escapedChar
  split
  case isTrue h => rcases h with rfl | rfl <;> exact .letter _ rfl
  case isFalse hmark =>
    rw [not_or] at hmark
    split
    case isTrue h => subst h; exact .letter 'n' rfl
    case isFalse =>
      split
      case isTrue h => subst h; exact .letter 'r' rfl
      case isFalse =>
        split
        case isTrue h => subst h; exact .letter 't' rfl
        case isFalse =>
          split
          case isTrue h => subst h; exact .letter 'b' rfl
          case isFalse =>
            split
            case isTrue h => subst h; exact .letter 'f' rfl
            case isFalse =>
              split
              case isTrue => exact .plain hmark.1 hmark.2
              case isFalse =>
                split
                case isTrue hunit => exact .unit hunit
                case isFalse hpair => exact .pair (by omega)

theorem toNat_lt (c : Char) : c.toNat < 0x110000 := by
  rcases c.valid with h | h
  · exact Nat.lt_trans h (by decide)
  · exact h.2

theorem toNat_not_surrogate (c : Char) : c.toNat < 0xD800 ∨ 0xE000 ≤ c.toNat := by
  rcases c.valid with h | h
  · exact .inl h
  · exact .inr h.1

theorem Escapes.append_inj {c d : Char} {text other first second : List Char}
    (hc : Escapes c text) (hd : Escapes d other) (h : text ++ first = other ++ second) :
    c = d ∧ first = second := by
  have hcLt := toNat_lt c
  have hdLt := toNat_lt d
  have hcUnit := toNat_not_surrogate c
  have hdUnit := toNat_not_surrogate d
  -- No letter of an escape is the one that introduces a unit.
  have hletter : ∀ letter e, letterEscaped letter = some e → letter ≠ 'u' := by
    rintro letter e he rfl
    cases he
  cases hc with
  | plain hmark hslash =>
      cases hd with
      | plain => exact List.cons.inj h
      | letter => exact absurd (List.cons.inj h).1 hslash
      | unit => exact absurd (List.cons.inj h).1 hslash
      | pair => exact absurd (List.cons.inj h).1 hslash
  | letter letter hc =>
      cases hd with
      | plain hmark hslash => exact absurd (List.cons.inj h).1.symm hslash
      | letter letter' hd =>
          obtain ⟨rfl, hrest⟩ := List.cons.inj (List.cons.inj h).2
          exact ⟨Option.some.inj (hc.symm.trans hd), hrest⟩
      | unit => exact absurd (List.cons.inj (List.cons.inj h).2).1 (hletter letter c hc)
      | pair => exact absurd (List.cons.inj (List.cons.inj h).2).1 (hletter letter c hc)
  | unit hsmall =>
      cases hd with
      | plain hmark hslash => exact absurd (List.cons.inj h).1.symm hslash
      | letter letter hd =>
          exact absurd (List.cons.inj (List.cons.inj h).2).1.symm (hletter letter d hd)
      | unit hsmall' =>
          obtain ⟨hunit, hrest⟩ := unitEscape_append_inj hsmall hsmall' h
          exact ⟨Char.toNat_inj.1 hunit, hrest⟩
      | pair hlarge =>
          rw [List.append_assoc] at h
          have hunit := (unitEscape_append_inj hsmall (by omega) h).1
          omega
  | pair hlarge =>
      rw [List.append_assoc] at h
      cases hd with
      | plain hmark hslash => exact absurd (List.cons.inj h).1.symm hslash
      | letter letter hd =>
          exact absurd (List.cons.inj (List.cons.inj h).2).1.symm (hletter letter d hd)
      | unit hsmall =>
          have hunit := (unitEscape_append_inj (by omega) hsmall h).1
          omega
      | pair hlarge' =>
          rw [List.append_assoc] at h
          obtain ⟨hhigh, h⟩ := unitEscape_append_inj (by omega) (by omega) h
          obtain ⟨hlow, hrest⟩ := unitEscape_append_inj (by omega) (by omega) h
          exact ⟨Char.toNat_inj.1 (by omega), hrest⟩

/-- No escape begins with the mark that closes a string. -/
theorem Escapes.mark_ne {c : Char} {text : List Char} (h : Escapes c text)
    (rest other : List Char) : '"' :: rest ≠ text ++ other := by
  intro heq
  cases h with
  | plain hmark => exact hmark (List.cons.inj heq).1.symm
  | letter => exact absurd (List.cons.inj heq).1 (by decide)
  | unit => exact absurd (List.cons.inj heq).1 (by decide)
  | pair => exact absurd (List.cons.inj heq).1 (by decide)

/-- A string ends at its mark, so what follows it is determined too. -/
theorem string_append_inj {s t : String} {first second : List Char}
    (h : string s ++ first = string t ++ second) : s = t ∧ first = second := by
  have hbody : ∀ l m : List Char,
      l.flatMap escapedChar ++ '"' :: first = m.flatMap escapedChar ++ '"' :: second →
        l = m ∧ first = second := by
    intro l
    induction l with
    | nil =>
        intro m hm
        cases m with
        | nil => exact ⟨rfl, (List.cons.inj hm).2⟩
        | cons d m =>
            rw [List.flatMap_cons, List.append_assoc] at hm
            exact absurd hm ((escapes_escapedChar d).mark_ne _ _)
    | cons c l ih =>
        intro m hm
        rw [List.flatMap_cons, List.append_assoc] at hm
        cases m with
        | nil => exact absurd hm.symm ((escapes_escapedChar c).mark_ne _ _)
        | cons d m =>
            rw [List.flatMap_cons, List.append_assoc] at hm
            obtain ⟨rfl, hbody⟩ :=
              (escapes_escapedChar c).append_inj (escapes_escapedChar d) hm
            obtain ⟨rfl, hrest⟩ := ih m hbody
            exact ⟨rfl, hrest⟩
  simp only [string, List.cons_append, List.append_assoc, List.nil_append] at h
  have hopened := (List.cons.inj h).2
  obtain ⟨hchars, hrest⟩ := hbody _ _ hopened
  exact ⟨String.toList_inj.1 hchars, hrest⟩

end Json

end PropertyGraph
