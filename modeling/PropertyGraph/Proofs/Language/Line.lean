import PropertyGraph.Proofs.Language.Digits
import PropertyGraph.Proofs.Language.Token

/-!
On which lines the faults of a text are found. Each is on the line of a token, or on the line where a
quotation mark is not closed, and these lines are in the text. Only the fault of an integer that has
too many digits shows no line; these digits stand in the text.
-/

namespace PropertyGraph

open Text

/-- The computation gives a result of this kind, or its fault is on one of the lines. -/
def Located (lines : List Nat) (holds : α → Prop) : Except TextError α → Prop
  | .ok result => holds result
  | .error e => ∃ n ∈ lines, e.line = some (n : Int)

namespace Located

variable {lines more : List Nat} {holds : α → Prop} {result : Except TextError α}

theorem mono {also : α → Prop} (h : Located lines holds result) (hlines : lines ⊆ more)
    (himp : ∀ value, holds value → also value) : Located more also result := by
  cases result with
  | ok value => exact himp value h
  | error e =>
      obtain ⟨n, hn, hline⟩ := h
      exact ⟨n, hlines hn, hline⟩

theorem bind {also : β → Prop} {next : α → Except TextError β} (h : Located lines holds result)
    (hnext : ∀ value, holds value → Located lines also (next value)) :
    Located lines also (result >>= next) := by
  cases result with
  | ok value => exact hnext value h
  | error e => exact h

theorem fail {fault : Fault} {line : Nat} (hline : line ∈ lines) :
    Located lines holds (Draft.fail fault line) :=
  ⟨line, hline, rfl⟩

theorem onLine {result : Except Fault α} {line : Nat} (hline : line ∈ lines) :
    Located lines (fun _ => True) (onLine (some (line : Int)) result) := by
  cases result with
  | ok value => trivial
  | error fault => exact ⟨line, hline, rfl⟩

end Located

namespace Token

theorem located_ofLines (number : Nat) (lines : List (List Char)) :
    Located (List.range' number lines.length)
      (fun tokens => tokens.map Token.line ⊆ List.range' number lines.length)
      (ofLines number lines) := by
  induction lines generalizing number with
  | nil => exact List.nil_subset _
  | cons line rest ih =>
      rw [ofLines, List.length_cons, List.range'_succ]
      split
      case h_1 => exact ⟨number, List.mem_cons_self, rfl⟩
      case h_2 lexemes hline =>
        refine ((ih (number + 1)).mono (List.subset_cons_self _ _) fun _ h => h).bind
          fun more hmore => ?_
        show List.map Token.line (lexemes.map (⟨·, number⟩) ++ more) ⊆ _
        rw [List.map_append, List.append_subset, List.map_map]
        refine ⟨fun n hn => ?_, List.Subset.trans hmore (List.subset_cons_self _ _)⟩
        obtain ⟨lexeme, -, rfl⟩ := List.mem_map.1 hn
        exact List.mem_cons_self

end Token

/-- The lines that are kept for faults that are found later. -/
def Stage.lines : Stage → List Nat
  | .heading _ line _ => [line]
  | .entries _ line found _ => line :: found.map Prod.snd
  | _ => []

namespace Draft

variable {lines : List Nat} {q : Query} {chunk : String} {line : Nat} {token : Token}
  {inBlock : Bool}

/-- No other lines are kept than these. -/
def Keeps (lines : List Nat) (draft : Draft) : Prop := draft.stage.lines ⊆ lines

theorem located_onLine {result : Except Fault Query} {stage : Stage} (hline : line ∈ lines)
    (hstage : stage.lines ⊆ lines) :
    Located lines (Keeps lines) (do return ⟨← onLine (some (line : Int)) result, stage⟩) :=
  (Located.onLine hline).bind fun _ _ => hstage

theorem located_bodyLine (hline : line ∈ lines) :
    Located lines (Keeps lines) (bodyLine q inBlock chunk line) := by
  unfold bodyLine
  split
  case h_1 => exact List.cons_subset.2 ⟨hline, List.nil_subset _⟩
  case h_2 =>
    split
    case h_1 => exact .fail hline
    case h_2 => exact located_onLine hline (List.nil_subset _)

theorem located_body (hline : token.line ∈ lines) :
    Located lines (Keeps lines) (body q inBlock token) := by
  unfold body
  split
  case h_1 =>
    split
    · exact List.nil_subset _
    · exact .fail hline
  case h_2 => exact .fail hline
  case h_3 => exact located_bodyLine hline

theorem located_headerLine (hline : token.line ∈ lines) :
    Located lines (Keeps lines) (headerLine q chunk token) := by
  unfold headerLine
  split
  case isTrue => exact located_onLine hline (List.nil_subset _)
  case isFalse =>
    split
    case isTrue => exact located_body hline
    case isFalse =>
      split
      · exact List.nil_subset _
      · exact .fail hline

theorem located_addEntries {part : Section} {found : List (String × Nat)}
    (hfound : found.map Prod.snd ⊆ lines) :
    Located lines (fun _ => True) (addEntries q part found) := by
  induction found generalizing q with
  | nil => trivial
  | cons entry rest ih =>
      obtain ⟨hline, hrest⟩ := List.cons_subset.1 hfound
      exact (Located.onLine hline).bind fun _ _ => ih hrest

/-- A fault that a step finds is on the line of its token, or on one that was kept; no others are
kept after it. -/
theorem located_step {draft : Draft} (hdraft : draft.Keeps lines) (hline : token.line ∈ lines) :
    Located lines (Keeps lines) (draft.step token) := by
  obtain ⟨query, stage⟩ := draft
  obtain ⟨lexeme, number⟩ := token
  cases stage with
  | header =>
      cases lexeme with
      | text chunk => exact located_headerLine hline
      | _ => exact .fail hline
  | operation =>
      -- What is no opening brace is taken as in a body without a block.
      have hbody : Located lines (Keeps lines) (body query false ⟨lexeme, number⟩) :=
        located_body hline
      cases lexeme with
      | opening => exact List.nil_subset _
      | text chunk => exact hbody
      | closing => exact hbody
  | body inBlock => exact located_body hline
  | heading part first inBlock =>
      cases lexeme with
      | opening => exact hdraft
      | _ => exact .fail (hdraft List.mem_cons_self)
  | entries part first found inBlock =>
      obtain ⟨hfirst, hfound⟩ := List.cons_subset.1 hdraft
      cases lexeme with
      | text chunk =>
          refine List.cons_subset.2 ⟨hfirst, ?_⟩
          rw [List.map_append, List.append_subset]
          exact ⟨hfound, List.cons_subset.2 ⟨hline, List.nil_subset _⟩⟩
      | opening => exact .fail hline
      | closing => exact (located_addEntries hfound).bind fun _ _ => List.nil_subset _
  | done => exact .fail hline

theorem located_run {tokens : List Token} {draft : Draft} (hdraft : draft.Keeps lines)
    (htokens : tokens.map Token.line ⊆ lines) :
    Located lines (Keeps lines) (tokens.foldlM step draft) := by
  induction tokens generalizing draft with
  | nil => exact hdraft
  | cons token rest ih =>
      obtain ⟨hline, hrest⟩ := List.cons_subset.1 htokens
      rw [List.foldlM_cons]
      exact (located_step hdraft hline).bind fun next hnext => ih hnext hrest

/-- A block that is not closed is reported on the last line, a section on its first. -/
theorem located_finish {draft : Draft} {last : Nat} (hdraft : draft.Keeps lines)
    (hlast : last ∈ lines) : Located lines (fun _ => True) (draft.finish (some last)) := by
  obtain ⟨query, stage⟩ := draft
  cases stage with
  | body inBlock =>
      cases inBlock with
      | false => trivial
      | true => exact ⟨last, hlast, rfl⟩
  | heading part first inBlock => exact .fail (hdraft List.mem_cons_self)
  | entries part first found inBlock => exact .fail (hdraft List.mem_cons_self)
  | _ => trivial

end Draft

namespace Query

/-- Where there is no last token, nothing has been opened either. -/
theorem located_ofTokens (tokens : List Token) :
    Located (tokens.map Token.line) (fun _ => True) (ofTokens tokens) := by
  cases hlast : tokens.getLast? with
  | none =>
      rw [List.getLast?_eq_none_iff.1 hlast]
      trivial
  | some last =>
      have hempty : Draft.empty.Keeps (tokens.map Token.line) := List.nil_subset _
      rw [ofTokens, hlast]
      refine (Draft.located_run hempty fun _ h => h).bind fun draft hdraft => ?_
      exact Draft.located_finish hdraft (List.mem_map_of_mem (List.mem_of_mem_getLast? hlast))

theorem located_ofText (text : String) :
    Located (List.range' 1 (text.toList.count '\n' + 1)) (fun _ => True) (ofText text) := by
  rw [← length_pieces]
  refine (Token.located_ofLines 1 _).bind fun tokens htokens => ?_
  exact (located_ofTokens tokens).mono htokens fun _ h => h

/-- An integer that cannot be read for its digits stands in the text. -/
theorem standsIn_of_ofText {text : String} {e : OversizedInteger} {line : Option Int}
    (h : ofText text = .error ⟨.oversizedInteger e, line⟩) : e.StandsIn text.toList := by
  rcases bind_eq_error_iff.1 h with h | ⟨tokens, htokens, h⟩
  · cases Token.fault_of_ofLines h
  · obtain ⟨chunk, hchunk, he⟩ := standsIn_of_ofTokens h
    exact he.trans (Token.infix_of_ofText htokens hchunk)

end Query

theorem TextError.message_of_line {fault : Fault} (n : Nat)
    (hfault : ∀ e, fault ≠ .oversizedInteger e) :
    TextError.message ⟨fault, some n⟩ =
      "line " ++ String.ofList (natDigits n) ++ ": " ++ fault.message := by
  rw [← intDigits_natCast]
  cases fault with
  | oversizedInteger e => exact absurd rfl (hfault e)
  | _ => rfl

namespace Query

/-- A text is a query, or it has a fault on one of its lines, which the message begins with, or an
integer of more than 4300 digits stands in it. Whatever is taken for a line of it has a first
word. -/
theorem ofText_outcome (text : String) :
    ((∃ q, ofText text = .ok q) ∨
      (∃ fault, ∃ n : Nat, ofText text = .error ⟨fault, some n⟩ ∧
        (∀ e, fault ≠ .oversizedInteger e) ∧ 1 ≤ n ∧ n ≤ 1 + text.toList.count '\n' ∧
        TextError.message ⟨fault, some n⟩ =
          "line " ++ String.ofList (natDigits n) ++ ": " ++ fault.message) ∨
      ∃ e line, ofText text = .error ⟨.oversizedInteger e, line⟩ ∧
        TextError.message ⟨.oversizedInteger e, line⟩ = e.message ∧
        ∃ digits, digits <:+: text.toList ∧ digits.all isDigit = true ∧ 4300 < digits.length) ∧
      ∀ tokens, Token.ofText text.toList = .ok tokens → ∀ chunk,
        .text chunk ∈ tokens.map Token.lexeme → words chunk.toList ≠ [] := by
  refine ⟨?_, fun tokens htokens chunk => Token.words_ne_nil_of_ofText htokens⟩
  have hlocated := located_ofText text
  cases hquery : ofText text with
  | ok q => exact .inl ⟨q, rfl⟩
  | error error =>
      obtain ⟨fault, line⟩ := error
      refine .inr ?_
      by_cases hfault : ∃ e, fault = .oversizedInteger e
      · obtain ⟨e, rfl⟩ := hfault
        obtain ⟨digits, hinfix, hdigits, hlength, hlimit⟩ := standsIn_of_ofText hquery
        exact .inr ⟨e, line, rfl, rfl, digits, hinfix, hdigits, hlength ▸ hlimit⟩
      · rw [hquery] at hlocated
        obtain ⟨n, hn, rfl⟩ := hlocated
        rw [not_exists] at hfault
        rw [List.mem_range'_1] at hn
        exact .inl ⟨fault, n, rfl, hfault, hn.1, by omega, TextError.message_of_line n hfault⟩

end Query

end PropertyGraph
