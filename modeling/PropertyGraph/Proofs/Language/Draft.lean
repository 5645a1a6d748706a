import PropertyGraph.Proofs.Except
import PropertyGraph.Proofs.Language.Rest

/-!
A draft takes the sentences of the grammar and no other token lists. What may still come is said
for each stage; one step of the draft uses up one lexeme of it, and no more than that.
-/

namespace PropertyGraph

open Text

theorem Section.ofKeyword?_eq_some_iff {word : String} {part : Section} :
    Section.ofKeyword? word = some part ↔ word = part.keyword := by
  constructor
  · intro h
    have hfound := List.find?_some h
    exact (beq_iff_eq.1 hfound).symm
  · rintro rfl
    cases part <;> decide

@[simp] theorem Section.ofKeyword?_keyword (part : Section) :
    Section.ofKeyword? part.keyword = some part :=
  Section.ofKeyword?_eq_some_iff.2 rfl

theorem onLine_eq_ok_iff {line : Option Int} {result : Except Fault α} {value : α} :
    onLine line result = .ok value ↔ result = .ok value := by
  cases result <;> simp [onLine, Except.mapError]

namespace Draft

theorem metadata_eq_ok_iff {q q' : Query} {chunk : String} :
    metadata q chunk = .ok q' ↔ ∃ a, Grammar.Metadata chunk a ∧ q' = a.apply q := by
  constructor
  · intro h
    unfold metadata at h
    cases hcut : cut ' ' chunk.toList with
    | mk keyword rest? =>
        simp only [hcut] at h
        split at h
        case h_1 hkeyword =>
          split at h
          case h_1 name more hwords =>
            obtain rfl : keyword = "@QUERY".toList := by rw [← hkeyword, String.toList_ofList]
            exact ⟨_, .name hcut hwords, (Except.ok.inj h).symm⟩
          case h_2 => cases h
        case h_2 hkeyword =>
          obtain rfl : keyword = "@INTENT".toList := by rw [← hkeyword, String.toList_ofList]
          exact ⟨_, .intent hcut, (Except.ok.inj h).symm⟩
        case h_3 => cases h
  · rintro ⟨a, hmetadata, rfl⟩
    cases hmetadata with
    | name hcut hwords => simp [metadata, hcut, hwords, Assignment.apply]
    | intent hcut => simp [metadata, hcut, Assignment.apply]

theorem directive_eq_ok_iff {q q' : Query} {chunk : String} :
    directive q chunk = .ok q' ↔ ∃ a, Grammar.Directive chunk a ∧ q' = a.apply q := by
  constructor
  · intro h
    unfold directive at h
    split at h
    case isTrue hsort =>
      split at h
      case h_1 sorting hsorting =>
        exact ⟨_, .sorting (List.isPrefixOf_iff_prefix.1 hsort) hsorting, (Except.ok.inj h).symm⟩
      case h_2 => cases h
    case isFalse =>
      split at h
      case isTrue hlimit =>
        split at h
        case h_1 => cases h
        case h_2 digits hdigits =>
          split at h
          case h_1 n hn =>
            exact ⟨_, .limit (List.isPrefixOf_iff_prefix.1 hlimit) hdigits hn,
              (Except.ok.inj h).symm⟩
          case h_2 => cases h
      case isFalse => cases h
  · rintro ⟨a, hdirective, rfl⟩
    unfold directive
    cases hdirective with
    | sorting hsort hsorting =>
        rw [if_pos (List.isPrefixOf_iff_prefix.2 hsort), hsorting]
        rfl
    | limit hlimit hdigits hn =>
        have hsort : "SORT".toList.isPrefixOf chunk.toList = false := by
          obtain ⟨rest, hrest⟩ := hlimit
          rw [← hrest]
          rfl
        rw [hsort, if_neg Bool.false_ne_true, if_pos (List.isPrefixOf_iff_prefix.2 hlimit)]
        simp only [hdigits, hn]
        rfl

end Draft

namespace Entry

theorem addTo_eq_ok_iff {q q' : Query} {part : Section} {chunk : String} :
    addTo q part chunk = .ok q' ↔ ∃ a, Grammar.Entry part chunk a ∧ q' = a.apply q := by
  constructor
  · intro h
    unfold addTo at h
    cases part with
    | conditions =>
        cases hsplit : split? chunk.toList with
        | none => simp [hsplit] at h
        | some entry =>
            simp only [hsplit] at h
            obtain ⟨value, hvalue, hq⟩ := exists_of_bind h
            exact ⟨_, .condition hsplit hvalue, (Except.ok.inj hq).symm⟩
    | aggregations =>
        cases hsplit : split? chunk.toList with
        | none => simp [hsplit] at h
        | some entry =>
            simp only [hsplit] at h
            obtain ⟨aggregation, haggregation, hq⟩ := exists_of_bind h
            exact ⟨_, .aggregation hsplit haggregation, (Except.ok.inj hq).symm⟩
    | filters =>
        cases hsplit : splitFilter? chunk.toList with
        | none => simp [hsplit] at h
        | some entry =>
            simp only [hsplit] at h
            obtain ⟨comparison, hcomparison, hq⟩ := exists_of_bind h
            exact ⟨_, .filter hsplit hcomparison, (Except.ok.inj hq).symm⟩
  · rintro ⟨a, hentry, rfl⟩
    cases hentry with
    | condition hsplit hvalue => simp [addTo, hsplit, hvalue, Assignment.apply]
    | aggregation hsplit haggregation => simp [addTo, hsplit, haggregation, Assignment.apply]
    | filter hsplit hcomparison => simp [addTo, hsplit, hcomparison, Assignment.apply]

end Entry

namespace Draft

variable {q q' : Query} {chunk : String}

theorem isBodyLine_iff :
    isBodyLine chunk = true ↔
      firstWord chunk ∈ ["WHERE", "COMPUTE", "FILTER", "SORT", "LIMIT"] := by
  have hsection : (Section.ofKeyword? (firstWord chunk)).isSome = true ↔
      firstWord chunk ∈ ["WHERE", "COMPUTE", "FILTER"] := by
    rw [Option.isSome_iff_exists]
    constructor
    · rintro ⟨part, h⟩
      rw [Section.ofKeyword?_eq_some_iff.1 h]
      cases part <;> decide
    · intro h
      simp only [List.mem_cons, List.not_mem_nil, or_false] at h
      rcases h with h | h | h
      · exact ⟨.conditions, Section.ofKeyword?_eq_some_iff.2 h⟩
      · exact ⟨.aggregations, Section.ofKeyword?_eq_some_iff.2 h⟩
      · exact ⟨.filters, Section.ofKeyword?_eq_some_iff.2 h⟩
  simp only [isBodyLine, Bool.or_eq_true, hsection, beq_iff_eq]
  simp [or_assoc]

theorem firstWord_of_directive {a : Assignment} (h : Grammar.Directive chunk a) :
    firstWord chunk = "SORT" ∨ firstWord chunk = "LIMIT" := by
  cases h with
  | sorting _ hsorting =>
      left
      unfold sortDirective? at hsorting
      split at hsorting
      case h_3 => cases hsorting
      all_goals
        next hwords =>
          simp only [Option.ite_none_right_eq_some, Bool.and_eq_true, beq_iff_eq] at hsorting
          rw [firstWord, hwords]
          exact hsorting.1.1.1
  | limit _ hdigits _ =>
      right
      unfold limitDigits? at hdigits
      split at hdigits
      case h_2 => cases hdigits
      case h_1 hwords =>
        simp only [Option.ite_none_right_eq_some, Bool.and_eq_true, beq_iff_eq] at hdigits
        rw [firstWord, hwords]
        exact hdigits.1.1

theorem head_of_directive {a : Assignment} (h : Grammar.Directive chunk a) :
    chunk.toList.head? ≠ some '@' := by
  cases h with
  | sorting hprefix _ =>
      obtain ⟨rest, hrest⟩ := hprefix
      simp [← hrest]
  | limit hprefix _ _ =>
      obtain ⟨rest, hrest⟩ := hprefix
      simp [← hrest]

theorem firstWord_keyword (part : Section) : firstWord part.keyword = part.keyword := by
  cases part <;> decide

theorem head_keyword (part : Section) : part.keyword.toList.head? ≠ some '@' := by
  cases part <;> decide

/-- A directive is no heading of a section, and does not begin as one does. -/
theorem ofKeyword?_of_directive {a : Assignment} (h : Grammar.Directive chunk a) :
    Section.ofKeyword? chunk = none ∧ Section.ofKeyword? (firstWord chunk) = none := by
  have hfirst : Section.ofKeyword? (firstWord chunk) = none := by
    rcases firstWord_of_directive h with h | h <;> rw [h] <;> decide
  refine ⟨Option.eq_none_iff_forall_ne_some.2 fun part hpart => ?_, hfirst⟩
  rw [Section.ofKeyword?_eq_some_iff.1 hpart, firstWord_keyword,
    Section.ofKeyword?_keyword] at hfirst
  cases hfirst

theorem addEntries_eq_ok_iff {part : Section} {found : List (String × Nat)} :
    addEntries q part found = .ok q' ↔
      ∃ assignments, List.Forall₂ (Grammar.Entry part) (found.map Prod.fst) assignments ∧
        q' = Assignment.applyAll q assignments := by
  induction found generalizing q with
  | nil =>
      constructor
      · intro h
        exact ⟨[], .nil, (Except.ok.inj h).symm⟩
      · rintro ⟨assignments, hentries, rfl⟩
        cases hentries
        rfl
  | cons entry rest ih =>
      obtain ⟨chunk, line⟩ := entry
      constructor
      · intro h
        obtain ⟨next, hnext, hrest⟩ := exists_of_bind h
        obtain ⟨a, hentry, rfl⟩ := Entry.addTo_eq_ok_iff.1 (onLine_eq_ok_iff.1 hnext)
        obtain ⟨assignments, hentries, rfl⟩ := ih.1 hrest
        exact ⟨a :: assignments, .cons hentry hentries, rfl⟩
      · rintro ⟨assignments, hentries, rfl⟩
        cases hentries with
        | @cons _ a _ more hentry hentries =>
            have hnext : onLine (some (line : Int)) (Entry.addTo q part chunk) =
                .ok (a.apply q) :=
              onLine_eq_ok_iff.2 (Entry.addTo_eq_ok_iff.2 ⟨a, hentry, rfl⟩)
            rw [addEntries, hnext]
            exact ih.2 ⟨more, hentries, rfl⟩

/-- The draft makes the query of these lexemes: what they assign completes it. -/
def Takes (draft : Draft) (lexemes : List Lexeme) (q : Query) : Prop :=
  ∃ assignments, Grammar.Rest draft.stage lexemes assignments ∧
    q = Assignment.applyAll draft.query assignments

/-- What a step gave is a draft, and that takes the lexemes that are left. -/
def Continues (result : Except TextError Draft) (rest : List Lexeme) (q : Query) : Prop :=
  ∃ next, result = .ok next ∧ Takes next rest q

variable {draft next : Draft} {token : Token} {rest : List Lexeme} {inBlock : Bool}

theorem takes_congr {stage stage' : Stage} {lexemes lexemes' : List Lexeme}
    (h : ∀ assignments,
      Grammar.Rest stage lexemes assignments ↔ Grammar.Rest stage' lexemes' assignments) :
    Takes ⟨q, stage⟩ lexemes q' ↔ Takes ⟨q, stage'⟩ lexemes' q' :=
  exists_congr fun assignments => and_congr_left fun _ => h assignments

theorem continues_ok : Continues (.ok next) rest q ↔ Takes next rest q := by
  simp [Continues]

/-- A step is refused where nothing may come that begins so. -/
theorem continues_error {e : TextError} {lexemes : List Lexeme}
    (h : ∀ assignments, ¬ Grammar.Rest draft.stage lexemes assignments) :
    Continues (.error e) rest q ↔ Takes draft lexemes q := by
  constructor
  · rintro ⟨next, hnext, -⟩
    cases hnext
  · rintro ⟨assignments, hrest, -⟩
    exact absurd hrest (h assignments)

theorem takes_of_bodyLine {line : Nat} (h : bodyLine q inBlock chunk line = .ok next)
    (hnext : next.Takes rest q') : Takes ⟨q, .body inBlock⟩ (.text chunk :: rest) q' := by
  unfold bodyLine at h
  split at h
  case h_1 part hpart =>
    obtain rfl := Except.ok.inj h
    obtain ⟨assignments, hrest, rfl⟩ := hnext
    have hheading := And.intro (Section.ofKeyword?_eq_some_iff.1 hpart) hrest
    exact ⟨assignments, Grammar.bodyRest_text.2 (.inr ⟨part, hheading⟩), rfl⟩
  case h_2 =>
    split at h
    case h_1 => cases h
    case h_2 =>
      obtain ⟨after, hafter, h⟩ := exists_of_bind h
      obtain rfl := Except.ok.inj h
      obtain ⟨a, hdirective, rfl⟩ := directive_eq_ok_iff.1 (onLine_eq_ok_iff.1 hafter)
      obtain ⟨assignments, hrest, rfl⟩ := hnext
      exact ⟨a :: assignments,
        Grammar.bodyRest_text.2 (.inl ⟨a, assignments, rfl, hdirective, hrest⟩), rfl⟩

theorem bodyLine_of_takes (line : Nat)
    (h : Takes ⟨q, .body inBlock⟩ (.text chunk :: rest) q') :
    Continues (bodyLine q inBlock chunk line) rest q' := by
  obtain ⟨assignments, hrest, rfl⟩ := h
  rcases Grammar.bodyRest_text.1 hrest with
    ⟨a, more, rfl, hdirective, hmore⟩ | ⟨part, rfl, hheading⟩
  · obtain ⟨hchunk, hfirst⟩ := ofKeyword?_of_directive hdirective
    have hquery : onLine (some (line : Int)) (directive q chunk) = .ok (a.apply q) :=
      onLine_eq_ok_iff.2 (directive_eq_ok_iff.2 ⟨a, hdirective, rfl⟩)
    refine ⟨⟨a.apply q, .body inBlock⟩, ?_, more, hmore, rfl⟩
    simp only [bodyLine, hchunk, hfirst, hquery]
    rfl
  · refine ⟨⟨q, .heading part line inBlock⟩, ?_, assignments, hheading, rfl⟩
    simp only [bodyLine, Section.ofKeyword?_keyword]

theorem body_iff :
    Continues (body q inBlock token) rest q' ↔
      Takes ⟨q, .body inBlock⟩ (token.lexeme :: rest) q' := by
  obtain ⟨lexeme, line⟩ := token
  cases lexeme with
  | text chunk =>
      exact ⟨fun ⟨_, hnext, htakes⟩ => takes_of_bodyLine hnext htakes, bodyLine_of_takes line⟩
  | opening => exact continues_error fun _ => Grammar.not_bodyRest_opening
  | closing =>
      cases inBlock with
      | false =>
          refine continues_error fun _ hrest => ?_
          cases (Grammar.bodyRest_closing.1 hrest).1
      | true =>
          refine continues_ok.trans (takes_congr fun assignments => ?_)
          exact (Grammar.bodyRest_closing.trans (and_iff_right rfl)).symm

/-- Items begin in a line of the body. -/
theorem begins_of_items {assignments : List Assignment}
    (h : Grammar.Items (.text chunk :: rest) assignments) :
    chunk.toList.head? ≠ some '@' ∧ isBodyLine chunk = true := by
  rw [isBodyLine_iff]
  obtain ⟨other, htext, hitem⟩ := h.cons_inv
  obtain rfl := Lexeme.text.inj htext
  rcases hitem with ⟨a, more, -, hdirective, -⟩ | ⟨part, chunks, first, after, more, rfl, -⟩
  · refine ⟨head_of_directive hdirective, ?_⟩
    rcases firstWord_of_directive hdirective with hfirst | hfirst <;> simp [hfirst]
  · refine ⟨head_keyword part, ?_⟩
    rw [firstWord_keyword]
    cases part <;> decide

theorem takes_of_headerLine {line : Nat}
    (h : headerLine q chunk ⟨.text chunk, line⟩ = .ok next) (hnext : next.Takes rest q') :
    Takes ⟨q, .header⟩ (.text chunk :: rest) q' := by
  unfold headerLine at h
  split at h
  case isTrue hat =>
    obtain ⟨after, hafter, h⟩ := exists_of_bind h
    obtain rfl := Except.ok.inj h
    obtain ⟨a, hmetadata, rfl⟩ := metadata_eq_ok_iff.1 (onLine_eq_ok_iff.1 hafter)
    obtain ⟨assignments, hrest, rfl⟩ := hnext
    exact ⟨a :: assignments, .metadata hat hmetadata hrest, rfl⟩
  case isFalse hat =>
    split at h
    case isTrue =>
      obtain ⟨assignments, hrest, rfl⟩ := body_iff.1 ⟨next, h, hnext⟩
      exact ⟨assignments, .body (.items (Grammar.bodyRest_false.1 hrest)), rfl⟩
    case isFalse hline =>
      rw [isBodyLine_iff] at hline
      split at h
      case h_1 name target hoperation =>
        obtain rfl := Except.ok.inj h
        obtain ⟨assignments, hrest, rfl⟩ := hnext
        exact ⟨_, .of_operation (.operation hat hline hoperation) hrest, rfl⟩
      case h_2 => cases h

theorem headerLine_of_takes (line : Nat) (h : Takes ⟨q, .header⟩ (.text chunk :: rest) q') :
    Continues (headerLine q chunk ⟨.text chunk, line⟩) rest q' := by
  obtain ⟨assignments, hrest, rfl⟩ := h
  unfold headerLine
  obtain ⟨other, htext, h⟩ := Grammar.Sentence.cons_inv hrest
  obtain rfl := Lexeme.text.inj htext
  rcases h with ⟨hat, a, more, rfl, hmetadata, hmore⟩ | ⟨a, more, rfl, hoperation, hmore⟩ | hitems
  · have hquery : onLine (some (line : Int)) (metadata q chunk) = .ok (a.apply q) :=
      onLine_eq_ok_iff.2 (metadata_eq_ok_iff.2 ⟨a, hmetadata, rfl⟩)
    refine ⟨⟨a.apply q, .header⟩, ?_, more, hmore, rfl⟩
    rw [if_pos hat, hquery]
    rfl
  · obtain ⟨hat, hline, hoperation⟩ := hoperation
    rw [← isBodyLine_iff] at hline
    rw [if_neg hat, if_neg hline, hoperation]
    exact ⟨_, rfl, more, hmore, rfl⟩
  · obtain ⟨hat, hline⟩ := begins_of_items hitems
    rw [if_neg hat, if_pos hline]
    exact body_iff.2 ⟨assignments, Grammar.bodyRest_false.2 hitems, rfl⟩

section

variable {lexeme : Lexeme} {line : Nat}

theorem step_header_iff :
    Continues (step ⟨q, .header⟩ ⟨lexeme, line⟩) rest q' ↔
      Takes ⟨q, .header⟩ (lexeme :: rest) q' := by
  have hbrace (h : ∀ chunk, lexeme ≠ .text chunk) (assignments : List Assignment) :
      ¬ Grammar.Rest .header (lexeme :: rest) assignments := by
    intro hrest
    obtain ⟨chunk, htext, -⟩ := Grammar.Sentence.cons_inv hrest
    exact h chunk htext
  cases lexeme with
  | text chunk =>
      exact ⟨fun ⟨_, hnext, htakes⟩ => takes_of_headerLine hnext htakes, headerLine_of_takes line⟩
  | opening => exact continues_error (hbrace nofun)
  | closing => exact continues_error (hbrace nofun)

theorem step_operation_iff :
    Continues (step ⟨q, .operation⟩ ⟨lexeme, line⟩) rest q' ↔
      Takes ⟨q, .operation⟩ (lexeme :: rest) q' := by
  -- What is no opening brace is taken as in a body without a block.
  have hbody : Continues (body q false ⟨lexeme, line⟩) rest q' ↔
      Takes ⟨q, .body false⟩ (lexeme :: rest) q' := body_iff
  cases lexeme with
  | opening =>
      exact continues_ok.trans (takes_congr fun _ => Grammar.rest_operation_opening.symm)
  | text chunk =>
      exact hbody.trans (takes_congr fun _ => (Grammar.rest_operation_of_ne (by simp)).symm)
  | closing =>
      exact hbody.trans (takes_congr fun _ => (Grammar.rest_operation_of_ne (by simp)).symm)

theorem step_heading_iff {part : Section} {first : Nat} :
    Continues (step ⟨q, .heading part first inBlock⟩ ⟨lexeme, line⟩) rest q' ↔
      Takes ⟨q, .heading part first inBlock⟩ (lexeme :: rest) q' := by
  cases lexeme with
  | opening => exact continues_ok.trans (takes_congr fun _ => Grammar.rest_heading_opening.symm)
  | text chunk => exact continues_error fun _ => Grammar.not_rest_heading (by simp)
  | closing => exact continues_error fun _ => Grammar.not_rest_heading (by simp)

theorem step_entries_iff {part : Section} {first : Nat} {found : List (String × Nat)} :
    Continues (step ⟨q, .entries part first found inBlock⟩ ⟨lexeme, line⟩) rest q' ↔
      Takes ⟨q, .entries part first found inBlock⟩ (lexeme :: rest) q' := by
  cases lexeme with
  | text chunk =>
      refine continues_ok.trans (takes_congr fun assignments => ?_)
      rw [Grammar.Rest, Grammar.Rest, Grammar.entriesRest_text, List.map_append]
      rfl
  | opening => exact continues_error fun _ => Grammar.not_entriesRest_opening
  | closing =>
      -- Only here do the entries found change the query, all of them at once.
      constructor
      · rintro ⟨next, hnext, more, hrest, rfl⟩
        obtain ⟨after, hafter, hnext⟩ := exists_of_bind hnext
        obtain rfl := Except.ok.inj hnext
        obtain ⟨assignments, hentries, rfl⟩ := addEntries_eq_ok_iff.1 hafter
        refine ⟨assignments ++ more, ?_, (Assignment.applyAll_append ..).symm⟩
        exact Grammar.entriesRest_closing.2 ⟨assignments, more, rfl, hentries, hrest⟩
      · rintro ⟨_, hrest, rfl⟩
        obtain ⟨assignments, more, rfl, hentries, hmore⟩ := Grammar.entriesRest_closing.1 hrest
        have hafter : addEntries q part found = .ok (Assignment.applyAll q assignments) :=
          addEntries_eq_ok_iff.2 ⟨assignments, hentries, rfl⟩
        refine ⟨⟨Assignment.applyAll q assignments, .body inBlock⟩, ?_, more, hmore,
          Assignment.applyAll_append ..⟩
        simp only [step, hafter]
        rfl

end

/-- A draft takes a list of lexemes exactly if it takes the first of them, and then the rest. -/
theorem step_iff :
    Continues (draft.step token) rest q ↔ draft.Takes (token.lexeme :: rest) q := by
  obtain ⟨query, stage⟩ := draft
  cases stage with
  | header => exact step_header_iff
  | operation => exact step_operation_iff
  | body inBlock => exact body_iff
  | heading part line inBlock => exact step_heading_iff
  | entries part line found inBlock => exact step_entries_iff
  | done => exact continues_error fun _ h => nomatch h.1

/-- A draft is finished where nothing more has to come. -/
theorem finish_iff {lastLine : Option Nat} :
    draft.finish lastLine = .ok q ↔ draft.Takes [] q := by
  obtain ⟨query, stage⟩ := draft
  have hdone (h : ∀ assignments, Grammar.Rest stage [] assignments ↔ assignments = []) :
      (Except.ok query : Except TextError Query) = .ok q ↔ Takes ⟨query, stage⟩ [] q := by
    simp [Takes, h, eq_comm]
  have hopen {e : TextError} (h : ∀ assignments, ¬ Grammar.Rest stage [] assignments) :
      (Except.error e : Except TextError Query) = .ok q ↔ Takes ⟨query, stage⟩ [] q := by
    simp [Takes, h]
  cases stage with
  | header =>
      refine hdone fun assignments => ⟨Grammar.Sentence.eq_nil, ?_⟩
      rintro rfl
      exact .body (.items .nil)
  | operation =>
      refine hdone fun assignments => (Grammar.rest_operation_of_ne (by simp)).trans ?_
      exact Grammar.bodyRest_nil.trans (and_iff_right rfl)
  | body inBlock =>
      cases inBlock with
      | false => exact hdone fun _ => Grammar.bodyRest_nil.trans (and_iff_right rfl)
      | true => exact hopen fun _ h => nomatch (Grammar.bodyRest_nil.1 h).1
  | heading part line inBlock => exact hopen fun _ => Grammar.not_rest_heading (by simp)
  | entries part line found inBlock => exact hopen fun _ => Grammar.not_entriesRest_nil
  | done => exact hdone fun _ => and_iff_right rfl

/-- A draft that is run over tokens ends in the queries that it takes them for. -/
theorem run_iff {tokens : List Token} {lastLine : Option Nat} :
    (tokens.foldlM step draft >>= fun last => last.finish lastLine) = .ok q ↔
      draft.Takes (tokens.map Token.lexeme) q := by
  -- The last line is fixed: it stands in messages only, so the step does not touch it.
  induction tokens generalizing draft with
  | nil => exact finish_iff
  | cons token tokens ih =>
      rw [List.map_cons, ← step_iff, List.foldlM_cons, bind_assoc]
      constructor
      · intro h
        obtain ⟨next, hnext, hrun⟩ := exists_of_bind h
        exact ⟨next, hnext, ih.1 hrun⟩
      · rintro ⟨next, hnext, htakes⟩
        rw [hnext]
        exact ih.2 htakes

end Draft

namespace Query

/-- Tokens make a query exactly if they are a sentence, and it is what the sentence assigns. -/
theorem ofTokens_iff {tokens : List Token} {q : Query} :
    ofTokens tokens = .ok q ↔ ∃ assignments,
      Grammar.Sentence (tokens.map Token.lexeme) assignments ∧
        q = Assignment.applyAll {} assignments :=
  Draft.run_iff

theorem ofText_of_tokens {text : String} {tokens : List Token}
    (h : Token.ofText text.toList = .ok tokens) : ofText text = ofTokens tokens := by
  rw [ofText, h]
  rfl

/-- A text whose tokens can be told makes a query exactly if they are a sentence of the grammar. The
query is what the sentence assigns from its first lexeme to its last, so that it holds what was
assigned last of each kind, and to each key of a clause. -/
theorem ofText_iff_sentence {text : String} {tokens : List Token}
    (htokens : Token.ofText text.toList = .ok tokens) :
    (∀ q, ofText text = .ok q ↔ ∃ assignments,
      Grammar.Sentence (tokens.map Token.lexeme) assignments ∧
        q = Assignment.applyAll {} assignments) ∧
    ∀ assignments, HoldsLast assignments (Assignment.applyAll {} assignments) := by
  refine ⟨fun q => ?_, holdsLast_applyAll⟩
  rw [ofText_of_tokens htokens]
  exact ofTokens_iff

/-- A second name, a second limit and a second section override what stood before them. -/
theorem ofText_of_overridden :
    let text := "@QUERY first\n@QUERY second\nFETCH users \x7b\nWHERE \x7b a: true \x7d\nLIMIT 5\n" ++
      "WHERE \x7b\na: false\nb: true \x7d\nLIMIT 7 \x7d"
    let tokens : List Token := [
      ⟨.text "@QUERY first", 1⟩, ⟨.text "@QUERY second", 2⟩, ⟨.text "FETCH users", 3⟩,
      ⟨.opening, 3⟩, ⟨.text "WHERE", 4⟩, ⟨.opening, 4⟩, ⟨.text "a: true", 4⟩, ⟨.closing, 4⟩,
      ⟨.text "LIMIT 5", 5⟩, ⟨.text "WHERE", 6⟩, ⟨.opening, 6⟩, ⟨.text "a: false", 7⟩,
      ⟨.text "b: true", 8⟩, ⟨.closing, 8⟩, ⟨.text "LIMIT 7", 9⟩, ⟨.closing, 9⟩]
    Token.ofText text.toList = .ok tokens ∧
      ofText text = .ok {
        name := "second"
        operation := .fetch
        target := "users"
        conditions := OrderedMap.ofList [("a", .bool false), ("b", .bool true)]
        limit := some 7 } := by
  intro text tokens
  have htokens : Token.ofText text.toList = .ok tokens := by decide +kernel
  have hread (b : Bool) :
      Literal.read (if b then "true".toList else "false".toList) = .ok (.bool b) := by
    cases b <;> exact Literal.read_of_not_bracketed? rfl
  have hwhere : Grammar.Item [.text "WHERE", .opening, .text "a: true", .closing]
      [.condition "a" (.bool true)] :=
    .entries (.cons (.condition rfl (hread true)) .nil)
  have hwhere' : Grammar.Item [.text "WHERE", .opening, .text "a: false", .text "b: true", .closing]
      [.condition "a" (.bool false), .condition "b" (.bool true)] :=
    .entries (.cons (.condition rfl (hread false)) (.cons (.condition rfl (hread true)) .nil))
  have hlimit : Grammar.Item [.text "LIMIT 5"] [.limit 5] :=
    .directive (.limit (by decide) rfl rfl)
  have hlimit' : Grammar.Item [.text "LIMIT 7"] [.limit 7] :=
    .directive (.limit (by decide) rfl rfl)
  have hitems := Grammar.Items.cons hwhere (.cons hlimit (.cons hwhere' (.cons hlimit' .nil)))
  have hoperation : Grammar.Operation "FETCH users" (.operation .fetch "users") := by
    have hname : Operation.named "FETCH" = .fetch := by decide +kernel
    rw [← hname]
    exact .operation (by decide) (by decide +kernel) rfl
  have hsentence : Grammar.Sentence (tokens.map Token.lexeme) _ :=
    .metadata rfl (.name rfl rfl) <| .metadata rfl (.name rfl rfl) <|
      .body (.block hoperation hitems)
  exact ⟨htokens, ((ofText_iff_sentence htokens).1 _).2 ⟨_, hsentence, rfl⟩⟩

end Query

end PropertyGraph
