import PropertyGraph.Language.Draft
import PropertyGraph.Proofs.Language.Scalar

/-!
Where an integer of too many digits comes from: these digits stand in the text, one after another.
Whatever reads a query text only cuts it up, so the digits that are counted are digits of the text.
-/

namespace PropertyGraph

open Text

/-- The integer stands in the text: as many digits in a row as are counted, and more than can be
read. -/
def OversizedInteger.StandsIn (e : OversizedInteger) (text : List Char) : Prop :=
  ∃ digits, digits <:+: text ∧ digits.all isDigit = true ∧ digits.length = e.digits ∧
    digitLimit < e.digits

namespace OversizedInteger.StandsIn

variable {e : OversizedInteger} {part text : List Char}

theorem trans (h : e.StandsIn part) (hpart : part <:+: text) : e.StandsIn text := by
  obtain ⟨digits, hdigits, hrest⟩ := h
  exact ⟨digits, hdigits.trans hpart, hrest⟩

theorem of_natural (hdigits : part.all isDigit = true) (h : Numeral.natural part = .error e) :
    e.StandsIn part := by
  unfold Numeral.natural at h
  split at h
  case isTrue hlimit =>
    obtain rfl := Except.error.inj h
    exact ⟨part, List.infix_rfl, hdigits, rfl, hlimit⟩
  case isFalse => cases h

end OversizedInteger.StandsIn

variable {e : OversizedInteger} {text : List Char}

namespace Literal

theorem natural_of_numberValue {negative : Bool} {whole : List Char}
    {fraction? : Option (List Char)}
    (h : numberValue negative whole fraction? = .error (.oversizedInteger e)) :
    Numeral.natural whole = .error e := by
  cases fraction? with
  | some fraction => cases h
  | none =>
      unfold numberValue at h
      cases hinteger : Numeral.signedInteger negative whole with
      | ok n =>
          rw [hinteger] at h
          cases h
      | error found =>
          rw [hinteger] at h
          obtain rfl : found = e := Fault.oversizedInteger.inj (Except.error.inj h)
          exact map_eq_error_iff.1 hinteger

theorem readDate_ne_oversized : readDate text ≠ .error (.oversizedInteger e) := by
  intro h
  unfold readDate at h
  dsimp only at h
  split at h <;> cases h

theorem standsIn_of_readScalar (h : readScalar text = .error (.oversizedInteger e)) :
    e.StandsIn text := by
  unfold readScalar at h
  split at h
  case isTrue => cases h
  case isFalse =>
    split at h
    case isTrue => cases h
    case isFalse =>
      split at h
      case h_1 negative whole fraction? hparts =>
        obtain ⟨hwhole, hdigits⟩ := digits_of_numberParts? hparts
        have hinfix := hwhole.trans (dropFinalNewline_isPrefix text).isInfix
        exact (OversizedInteger.StandsIn.of_natural hdigits (natural_of_numberValue h)).trans hinfix
      case h_2 =>
        split at h
        case isTrue => exact absurd h readDate_ne_oversized
        case isFalse => cases h

/-- Reading goes into brackets, and ends at scalars. -/
theorem standsIn_of_read (h : read text = .error (.oversizedInteger e)) : e.StandsIn text := by
  induction hlength : text.length using Nat.strongRecOn generalizing text with
  | ind n ih =>
      subst hlength
      cases hbracketed : bracketed? (core text) with
      | none =>
          rw [read_of_not_bracketed? hbracketed] at h
          exact (standsIn_of_readScalar h).trans (core_isInfix text)
      | some inner =>
          rw [read_of_bracketed? hbracketed] at h
          obtain ⟨item, hitem, hread⟩ := mem_of_mapM_eq_error (map_eq_error_iff.1 h)
          have hinner := (infix_of_mem_pieces (List.mem_filter.1 hitem).1).trans
            ((infix_of_bracketed? hbracketed).trans (core_isInfix text))
          exact (ih _ (length_lt_of_mem_items hbracketed hitem) hread rfl).trans hinner

end Literal

/-- An aggregate holds no number. -/
theorem Aggregation.read_ne_oversized : Aggregation.read text ≠ .error (.oversizedInteger e) := by
  intro h
  unfold Aggregation.read at h
  dsimp only at h
  split at h
  case h_1 =>
    split at h
    case h_1 =>
      split at h
      case h_1 => cases h
      case h_2 =>
        split at h
        · cases h
        · split at h <;> cases h
    case h_2 => cases h
  case h_2 => cases h

/-- The operator of a comparison stands before its literal. -/
theorem Comparison.standsIn_of_read (h : Comparison.read text = .error (.oversizedInteger e)) :
    e.StandsIn text := by
  unfold Comparison.read at h
  dsimp only at h
  cases hfound : ComparisonOp.inSearchOrder.findSome? fun op =>
      (cutAt op.symbol.toList text).map fun around => (op, around.2) with
  | none =>
      rw [hfound] at h
      exact Literal.standsIn_of_read (map_eq_error_iff.1 h)
  | some found =>
      rw [hfound] at h
      obtain ⟨op, -, hop⟩ := List.exists_of_findSome?_eq_some hfound
      obtain ⟨⟨before, after⟩, hcut, rfl⟩ := Option.map_eq_some_iff.1 hop
      exact (Literal.standsIn_of_read (map_eq_error_iff.1 h)).trans (suffix_of_cutAt hcut).isInfix

namespace Entry

theorem infix_of_split? {name : String} {value : List Char}
    (h : split? text = some (name, value)) : value <:+: text := by
  unfold split? at h
  split at h
  case h_1 front after hcut =>
    obtain ⟨-, hsome⟩ := Option.ite_none_right_eq_some.1 h
    obtain ⟨-, rfl⟩ := Prod.mk.inj (Option.some.inj hsome)
    have hafter : (cut ':' text).2 = some after := by rw [hcut]
    exact (strip_isInfix after).trans (suffix_of_cut hafter).isInfix
  case h_2 => cases h

theorem infix_of_splitFilter? {name : String} {comparison : List Char}
    (h : splitFilter? text = some (name, comparison)) : comparison <:+: text := by
  unfold splitFilter? at h
  cases hsplit : split? text with
  | some entry =>
    rw [hsplit] at h
    obtain rfl := Option.some.inj h
    exact infix_of_split? hsplit
  | none =>
    rw [hsplit] at h
    have h : splitAtOperator? text = some (name, comparison) := h
    unfold splitAtOperator? at h
    obtain ⟨before, -, h⟩ := Option.bind_eq_some_iff.1 h
    obtain ⟨-, hsome⟩ := Option.ite_none_right_eq_some.1 h
    obtain ⟨-, rfl⟩ := Prod.mk.inj (Option.some.inj hsome)
    exact (List.drop_suffix _ text).isInfix

theorem standsIn_of_addTo {q : Query} {part : Section} {chunk : String}
    (h : addTo q part chunk = .error (.oversizedInteger e)) : e.StandsIn chunk.toList := by
  unfold addTo at h
  cases part with
  | conditions =>
      dsimp only at h
      split at h
      case h_1 => cases h
      case h_2 hsplit =>
        exact (Literal.standsIn_of_read (map_eq_error_iff.1 h)).trans (infix_of_split? hsplit)
  | aggregations =>
      dsimp only at h
      split at h
      case h_1 => cases h
      case h_2 => exact absurd (map_eq_error_iff.1 h) Aggregation.read_ne_oversized
  | filters =>
      dsimp only at h
      split at h
      case h_1 => cases h
      case h_2 hsplit =>
        exact (Comparison.standsIn_of_read (map_eq_error_iff.1 h)).trans
          (infix_of_splitFilter? hsplit)

end Entry

namespace Draft

variable {q : Query} {chunk : String} {line : Option Int}

theorem onLine_eq_error_iff {fault : Fault} {place line : Option Int} {result : Except Fault α} :
    onLine place result = .error ⟨fault, line⟩ ↔ result = .error fault ∧ place = line := by
  rw [onLine, mapError_eq_error_iff]
  simp

theorem metadata_ne_oversized : metadata q chunk ≠ .error (.oversizedInteger e) := by
  intro h
  unfold metadata at h
  dsimp only at h
  split at h
  · split at h <;> cases h
  · cases h
  · cases h

theorem standsIn_of_directive (h : directive q chunk = .error (.oversizedInteger e)) :
    e.StandsIn chunk.toList := by
  unfold directive at h
  split at h
  case isTrue => split at h <;> cases h
  case isFalse =>
    split at h
    case isTrue =>
      split at h
      case h_1 => cases h
      case h_2 digits hdigits =>
        split at h
        case h_1 => cases h
        case h_2 he =>
          obtain rfl := Fault.oversizedInteger.inj (Except.error.inj h)
          unfold limitDigits? at hdigits
          split at hdigits
          case h_1 head word hwords =>
            obtain ⟨hword, hsome⟩ := Option.ite_none_right_eq_some.1 hdigits
            obtain rfl := Option.some.inj hsome
            rw [Bool.and_eq_true] at hword
            have hmem : word ∈ words chunk.toList := by rw [hwords]; simp
            exact (OversizedInteger.StandsIn.of_natural hword.2 he).trans (infix_of_mem_words hmem)
          case h_2 => cases hdigits
    case isFalse => cases h

/-- The entries that were found and not yet read. -/
def pending (draft : Draft) : List String :=
  match draft.stage with
  | .entries _ _ found _ => found.map Prod.fst
  | _ => []

theorem standsIn_of_bodyLine {inBlock : Bool} {number : Nat}
    (h : bodyLine q inBlock chunk number = .error ⟨.oversizedInteger e, line⟩) :
    e.StandsIn chunk.toList := by
  unfold bodyLine at h
  split at h
  case h_1 => cases h
  case h_2 =>
    split at h
    case h_1 => cases h
    case h_2 => exact standsIn_of_directive (onLine_eq_error_iff.1 (map_eq_error_iff.1 h)).1

theorem standsIn_of_body {inBlock : Bool} {token : Token}
    (h : body q inBlock token = .error ⟨.oversizedInteger e, line⟩) :
    ∃ chunk, token.lexeme = .text chunk ∧ e.StandsIn chunk.toList := by
  unfold body at h
  split at h
  case h_1 => split at h <;> cases h
  case h_2 => cases h
  case h_3 chunk hchunk => exact ⟨chunk, hchunk, standsIn_of_bodyLine h⟩

theorem standsIn_of_addEntries {part : Section} {found : List (String × Nat)}
    (h : addEntries q part found = .error ⟨.oversizedInteger e, line⟩) :
    ∃ chunk ∈ found.map Prod.fst, e.StandsIn chunk.toList := by
  induction found generalizing q with
  | nil => cases h
  | cons entry rest ih =>
      rcases bind_eq_error_iff.1 h with h | ⟨next, -, h⟩
      · exact ⟨_, List.mem_cons_self, Entry.standsIn_of_addTo (onLine_eq_error_iff.1 h).1⟩
      · obtain ⟨chunk, hchunk, he⟩ := ih h
        exact ⟨chunk, List.mem_cons_of_mem _ hchunk, he⟩

theorem standsIn_of_headerLine {token : Token} (hchunk : token.lexeme = .text chunk)
    (h : headerLine q chunk token = .error ⟨.oversizedInteger e, line⟩) :
    e.StandsIn chunk.toList := by
  unfold headerLine at h
  split at h
  case isTrue =>
    exact absurd (onLine_eq_error_iff.1 (map_eq_error_iff.1 h)).1 metadata_ne_oversized
  case isFalse =>
    split at h
    case isTrue =>
      obtain ⟨other, hother, he⟩ := standsIn_of_body h
      obtain rfl := Lexeme.text.inj (hchunk.symm.trans hother)
      exact he
    case isFalse => split at h <;> cases h

/-- A step that meets the integer meets it in its token, or in an entry that it reads late. -/
theorem standsIn_of_step {draft : Draft} {token : Token}
    (h : draft.step token = .error ⟨.oversizedInteger e, line⟩) :
    ∃ chunk, (chunk ∈ draft.pending ∨ token.lexeme = .text chunk) ∧ e.StandsIn chunk.toList := by
  have hbody {inBlock : Bool}
      (h : body draft.query inBlock token = .error ⟨.oversizedInteger e, line⟩) :
      ∃ chunk, (chunk ∈ draft.pending ∨ token.lexeme = .text chunk) ∧ e.StandsIn chunk.toList := by
    obtain ⟨chunk, hchunk, he⟩ := standsIn_of_body h
    exact ⟨chunk, .inr hchunk, he⟩
  unfold step at h
  dsimp only at h
  split at h
  case h_1 hchunk => exact ⟨_, .inr hchunk, standsIn_of_headerLine hchunk h⟩
  case h_4 => exact hbody h
  case h_5 => exact hbody h
  case h_9 hstage _ =>
    obtain ⟨chunk, hchunk, he⟩ := standsIn_of_addEntries (map_eq_error_iff.1 h)
    exact ⟨chunk, .inl (by rw [pending, hstage]; exact hchunk), he⟩
  all_goals cases h

theorem pending_of_bodyLine {inBlock : Bool} {number : Nat} {next : Draft}
    (h : bodyLine q inBlock chunk number = .ok next) : next.pending = [] := by
  unfold bodyLine at h
  split at h
  case h_1 =>
    obtain rfl := Except.ok.inj h
    rfl
  case h_2 =>
    split at h
    case h_1 => cases h
    case h_2 =>
      obtain ⟨after, -, h⟩ := exists_of_bind h
      obtain rfl := Except.ok.inj h
      rfl

theorem pending_of_body {inBlock : Bool} {token : Token} {next : Draft}
    (h : body q inBlock token = .ok next) : next.pending = [] := by
  unfold body at h
  split at h
  case h_1 =>
    split at h
    · obtain rfl := Except.ok.inj h
      rfl
    · cases h
  case h_2 => cases h
  case h_3 => exact pending_of_bodyLine h

theorem pending_of_headerLine {token : Token} {next : Draft}
    (h : headerLine q chunk token = .ok next) : next.pending = [] := by
  unfold headerLine at h
  split at h
  case isTrue =>
    obtain ⟨after, -, h⟩ := exists_of_bind h
    obtain rfl := Except.ok.inj h
    rfl
  case isFalse =>
    split at h
    case isTrue => exact pending_of_body h
    case isFalse =>
      split at h
      · obtain rfl := Except.ok.inj h
        rfl
      · cases h

/-- An entry that is found is the text of the token. -/
theorem pending_of_step {draft next : Draft} {token : Token} (h : draft.step token = .ok next)
    (hchunk : chunk ∈ next.pending) : chunk ∈ draft.pending ∨ token.lexeme = .text chunk := by
  have hnone (h : next.pending = []) : chunk ∈ draft.pending ∨ token.lexeme = .text chunk := by
    rw [h] at hchunk
    cases hchunk
  unfold step at h
  dsimp only at h
  split at h
  case h_1 => exact hnone (pending_of_headerLine h)
  case h_4 => exact hnone (pending_of_body h)
  case h_5 => exact hnone (pending_of_body h)
  case h_8 part line found inBlock other hstage hlexeme =>
    obtain rfl := Except.ok.inj h
    simp only [pending, List.map_append, List.mem_append] at hchunk
    refine hchunk.imp (fun h => ?_) fun h => ?_
    · rw [pending, hstage]
      exact h
    · rw [hlexeme, List.mem_singleton.1 h]
  case h_9 =>
    obtain ⟨after, -, h⟩ := exists_of_bind h
    obtain rfl := Except.ok.inj h
    exact hnone rfl
  all_goals
    first
      | cases h; done
      | exact hnone (Except.ok.inj h ▸ rfl)

/-- What is found in a run was found before, or is a text of its tokens. -/
theorem pending_of_run {tokens : List Token} {draft next : Draft}
    (h : tokens.foldlM step draft = .ok next) (hchunk : chunk ∈ next.pending) :
    chunk ∈ draft.pending ∨ .text chunk ∈ tokens.map Token.lexeme := by
  induction tokens generalizing draft with
  | nil =>
      obtain rfl := Except.ok.inj h
      exact .inl hchunk
  | cons token rest ih =>
      rw [List.foldlM_cons] at h
      obtain ⟨after, hafter, h⟩ := exists_of_bind h
      rw [List.map_cons, List.mem_cons]
      rcases ih h with hpending | hrest
      · exact (pending_of_step hafter hpending).imp_right fun h => .inl h.symm
      · exact .inr (.inr hrest)

theorem finish_ne_oversized {draft : Draft} {lastLine : Option Nat} :
    draft.finish lastLine ≠ .error ⟨.oversizedInteger e, line⟩ := by
  intro h
  unfold finish at h
  split at h <;> cases h

end Draft

namespace Query

theorem standsIn_of_ofTokens {tokens : List Token} {line : Option Int}
    (h : ofTokens tokens = .error ⟨.oversizedInteger e, line⟩) :
    ∃ chunk, .text chunk ∈ tokens.map Token.lexeme ∧ e.StandsIn chunk.toList := by
  rcases bind_eq_error_iff.1 h with h | ⟨draft, -, h⟩
  · obtain ⟨before, token, after, draft, rfl, hrun, hstep⟩ := foldlM_eq_error_iff.1 h
    obtain ⟨chunk, hchunk, he⟩ := Draft.standsIn_of_step hstep
    refine ⟨chunk, ?_, he⟩
    rw [List.map_append, List.map_cons, List.mem_append, List.mem_cons]
    rcases hchunk with hpending | hlexeme
    · exact .inl ((Draft.pending_of_run hrun hpending).resolve_left List.not_mem_nil)
    · exact .inr (.inl hlexeme.symm)
  · exact absurd h Draft.finish_ne_oversized

end Query

end PropertyGraph
