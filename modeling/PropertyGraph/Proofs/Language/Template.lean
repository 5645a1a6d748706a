import PropertyGraph.Language.Template
import PropertyGraph.Proofs.Language.Draft
import PropertyGraph.Proofs.Language.Token

/-!
Drafts. Whatever a request holds, its draft makes the query of the template that is chosen for it:
the name of the template and the request itself are all that the draft adds. The request stands
between quotation marks on one line, where nothing ends it but the mark that is meant to.
-/

namespace PropertyGraph

open Text

namespace Assignment

/-- Neither a name nor an intent is assigned. -/
def IsUnnamed (a : Assignment) : Prop := a.name? = none ∧ a.intent? = none

/-- What names nothing leaves the name and the intent to what stands before it. -/
theorem applyAll_named {assignments : List Assignment} (h : ∀ a ∈ assignments, a.IsUnnamed)
    (q : Query) (name intent : String) :
    applyAll { q with name, intent } assignments =
      { applyAll q assignments with name, intent } := by
  induction assignments generalizing q with
  | nil => rfl
  | cons a rest ih =>
      obtain ⟨⟨hname, hintent⟩, hrest⟩ := List.forall_mem_cons.1 h
      rw [applyAll_cons, applyAll_cons, ← ih hrest]
      cases a with
      | name text => cases hname
      | intent text => cases hintent
      | _ => rfl

end Assignment

namespace Grammar

variable {lexemes : List Lexeme} {assignments : List Assignment}

theorem Body.isUnnamed (h : Body lexemes assignments) : ∀ a ∈ assignments, a.IsUnnamed := by
  refine h.forall_mem (fun _ _ h => ?_) (fun _ _ _ h => ?_) fun _ _ h => ?_
  all_goals cases h <;> exact ⟨rfl, rfl⟩

/-- A sentence that does not begin as a metadata line does has no metadata. -/
theorem Sentence.body_of_head (h : Sentence lexemes assignments)
    (hhead : ∀ chunk rest, lexemes = .text chunk :: rest → chunk.toList.head? ≠ some '@') :
    Body lexemes assignments := by
  cases h with
  | metadata hat _ _ => exact absurd hat (hhead _ _ rfl)
  | body hbody => exact hbody

end Grammar

namespace Template

/-- Every trigger stands in the request, in small letters. -/
def Fits (t : Template) (request : String) : Prop :=
  ∀ trigger ∈ t.triggers, trigger.toList <:+: lower request.toList

theorem matchesLowered_iff {t : Template} {request : String} :
    t.matchesLowered (lower request.toList) = true ↔ t.Fits request := by
  simp only [matchesLowered, Fits, List.all_eq_true, occursIn_iff]

/-- The name is one word without quotation marks and braces, and the body a query text of its own
in which no line begins as a metadata line does. -/
structure Sound (t : Template) : Prop where
  name_ne : t.name.toList ≠ []
  name_unblank : ∀ c ∈ t.name.toList, isBlank c = false
  name_plain : ∀ c ∈ t.name.toList, Token.IsPlain c
  body_unnamed : ∀ line ∈ pieces (· == '\n') t.body.toList,
    (line.dropWhile isBlank).head? ≠ some '@'
  body : ∃ q, Query.ofText t.body = .ok q

/-- A quotation mark as an apostrophe. -/
def unmark (c : Char) : Char := if c = '"' then '\'' else c

theorem intentOf_eq (request : List Char) :
    intentOf request = strip (collapseBlanks (request.map unmark)) :=
  join_words _

/-- The intent stays on its line, and between its quotation marks. -/
theorem notMem_intentOf (request : List Char) :
    '"' ∉ intentOf request ∧ '\n' ∉ intentOf request := by
  have hmem {c : Char} (h : c ∈ intentOf request) :
      c = ' ' ∨ c ∈ request.map unmark ∧ isBlank c = false := by
    rw [intentOf_eq] at h
    exact mem_of_mem_collapseAfter ((strip_isInfix _).subset h)
  constructor
  · intro h
    rcases hmem h with h | ⟨h, -⟩
    · cases h
    · obtain ⟨c, -, hc⟩ := List.mem_map.1 h
      unfold unmark at hc
      split at hc
      · cases hc
      · next hne => exact hne hc
  · intro h
    rcases hmem h with h | ⟨-, h⟩
    · cases h
    · exact absurd h (by decide)

/-- The metadata lines of a draft. -/
def nameLine (t : Template) : List Char := "@QUERY".toList ++ ' ' :: t.name.toList

def intentLine (intent : List Char) : List Char :=
  "@INTENT".toList ++ ' ' :: '"' :: (intent ++ ['"'])

theorem nameLine_eq (t : Template) : t.nameLine = "@QUERY".toList ++ ' ' :: t.name.toList := rfl

theorem intentLine_eq (intent : List Char) :
    intentLine intent = "@INTENT".toList ++ ' ' :: '"' :: (intent ++ ['"']) := rfl

theorem toList_render (t : Template) (request : String) :
    (t.render request).toList =
      t.nameLine ++ '\n' ::
        (intentLine (intentOf request.toList) ++ '\n' :: '\n' :: t.body.toList) := by
  have hquery : "@QUERY ".toList = "@QUERY".toList ++ [' '] := rfl
  have hintent : "\n@INTENT \"".toList = '\n' :: ("@INTENT".toList ++ [' ', '"']) := rfl
  have hclosing : "\"\n\n".toList = ['"', '\n', '\n'] := rfl
  simp only [render, nameLine_eq, intentLine_eq, String.toList_append, String.toList_ofList, hquery,
    hintent, hclosing, List.append_assoc, List.cons_append, List.nil_append]

theorem ofLine_nameLine {t : Template} (h : t.Sound) :
    Token.ofLine t.nameLine = some [.text (String.ofList t.nameLine)] := by
  have hplain : ∀ c ∈ t.nameLine, Token.IsPlain c :=
    List.forall_mem_append.2
      ⟨by simp [Token.IsPlain], List.forall_mem_cons.2 ⟨by decide, h.name_plain⟩⟩
  have hstrip : strip t.nameLine = t.nameLine := by
    obtain hnil | ⟨front, last, hname⟩ := List.eq_nil_or_concat' t.name.toList
    · exact absurd hnil h.name_ne
    · have hlast : isBlank last = false := h.name_unblank last (by simp [hname])
      have hline : t.nameLine = '@' :: ("QUERY ".toList ++ front ++ [last]) := by
        rw [nameLine_eq, hname]
        rfl
      rw [hline]
      exact strip_enclosed (by decide) hlast _
  have hne : t.nameLine ≠ [] := List.append_ne_nil_of_right_ne_nil _ (List.cons_ne_nil _ _)
  rw [Token.ofLine_of_plain hplain, Token.ofChunk_of_strip hne hstrip]

theorem ofLine_intentLine {intent : List Char} (h : '"' ∉ intent) :
    Token.ofLine (intentLine intent) = some [.text (String.ofList (intentLine intent))] := by
  have hline : intentLine intent = "@INTENT ".toList ++ '"' :: (intent ++ ['"']) := rfl
  have hstrip : strip (intentLine intent) = intentLine intent := by
    have henclosed : intentLine intent = '@' :: ("INTENT \"".toList ++ intent ++ ['"']) := by
      rw [hline]
      rfl
    rw [henclosed]
    exact strip_enclosed (by decide) (by decide) _
  have hne : intentLine intent ≠ [] := List.append_ne_nil_of_right_ne_nil _ (List.cons_ne_nil _ _)
  have hchunk := Token.ofChunk_of_strip hne hstrip
  rw [← hchunk, hline]
  exact Token.ofLine_of_quoted (by simp [Token.IsPlain]) h

theorem metadata_nameLine {t : Template} (h : t.Sound) :
    Grammar.Metadata (String.ofList t.nameLine) (.name t.name) := by
  have hcut : cut ' ' (String.ofList t.nameLine).toList =
      ("@QUERY".toList, some t.name.toList) := by
    rw [String.toList_ofList, nameLine_eq]
    exact cut_append_mark (by decide) _
  have hwords : words (strip t.name.toList) = [t.name.toList] := by
    rw [strip_eq_self (fun c hc => h.name_unblank c (List.mem_of_mem_head? hc))
      fun c hc => h.name_unblank c (List.mem_of_mem_getLast? hc)]
    exact words_of_unblank h.name_ne h.name_unblank
  have hmetadata := Grammar.Metadata.name hcut hwords
  rwa [String.ofList_toList] at hmetadata

theorem metadata_intentLine {intent : List Char} (h : '"' ∉ intent) :
    Grammar.Metadata (String.ofList (intentLine intent)) (.intent (String.ofList intent)) := by
  have hcut : cut ' ' (String.ofList (intentLine intent)).toList =
      ("@INTENT".toList, some ('"' :: (intent ++ ['"']))) := by
    rw [String.toList_ofList, intentLine_eq]
    exact cut_append_mark (by decide) _
  have hquoted : Draft.firstQuoted? (strip ('"' :: (intent ++ ['"']))) = some intent := by
    rw [strip_enclosed (by decide) (by decide)]
    have hopening : cut '"' ('"' :: (intent ++ ['"'])) = ([], some (intent ++ ['"'])) :=
      cut_append_mark List.not_mem_nil _
    have hclosing : cut '"' (intent ++ ['"']) = (intent, some []) := cut_append_mark h []
    simp [Draft.firstQuoted?, hopening, hclosing]
  have hmetadata := Grammar.Metadata.intent hcut
  rwa [Option.getD_some, hquoted] at hmetadata

/-- A draft has its two metadata lines, and then the lexemes of the body. -/
theorem tokens_render {t : Template} (h : t.Sound) (request : String) {tokens : List Token}
    (htokens : Token.ofText t.body.toList = .ok tokens) :
    ∃ others, Token.ofText (t.render request).toList = .ok others ∧
      others.map Token.lexeme =
        .text (String.ofList t.nameLine) ::
          .text (String.ofList (intentLine (intentOf request.toList))) ::
            tokens.map Token.lexeme := by
  obtain ⟨hmark, hnewline⟩ := notMem_intentOf request.toList
  have hname : '\n' ∉ t.nameLine := by
    have hnewline : '\n' ∉ t.name.toList := fun h' => absurd (h.name_unblank _ h') (by decide)
    rw [nameLine_eq, List.mem_append, List.mem_cons, not_or, not_or]
    exact ⟨by decide, by decide, hnewline⟩
  have hintent : '\n' ∉ intentLine (intentOf request.toList) := by
    have hline : intentLine (intentOf request.toList) =
        "@INTENT \"".toList ++ (intentOf request.toList ++ ['"']) := rfl
    rw [hline, List.mem_append, List.mem_append, not_or, not_or]
    exact ⟨by decide, hnewline, by decide⟩
  have hlines : pieces (· == '\n') (t.render request).toList =
      t.nameLine :: intentLine (intentOf request.toList) :: [] ::
        pieces (· == '\n') t.body.toList := by
    rw [toList_render, pieces_append_of_notMem hname, pieces_append_of_notMem hintent,
      pieces_cons_of_true (p := (· == '\n')) (beq_self_eq_true '\n')]
  obtain ⟨others, hothers, hsame⟩ := Token.ofLines_renumber htokens 4
  have hblank : Token.ofLine [] = some [] := rfl
  have hok := Token.ofLines_cons_ok (ofLine_nameLine h) <|
    Token.ofLines_cons_ok (ofLine_intentLine hmark) <| Token.ofLines_cons_ok hblank hothers
  rw [← hlines] at hok
  exact ⟨_, hok, by simp [hsame]⟩

/-- The draft of a template makes the query of its body, with the name of the template and the
request as intent. -/
theorem ofText_render {t : Template} (h : t.Sound) (request : String) {q : Query}
    (hq : Query.ofText t.body = .ok q) :
    Query.ofText (t.render request) =
      .ok { q with name := t.name, intent := String.ofList (intentOf request.toList) } := by
  obtain ⟨tokens, htokens, hquery⟩ := exists_of_bind hq
  obtain ⟨assignments, hsentence, rfl⟩ := Query.ofTokens_iff.1 hquery
  have hbody : Grammar.Body (tokens.map Token.lexeme) assignments := by
    refine hsentence.body_of_head fun chunk rest hfirst hat => ?_
    obtain ⟨line, hline, hhead⟩ := Token.head_of_ofLines htokens hfirst
    exact h.body_unnamed line hline (hhead.trans hat)
  obtain ⟨others, hothers, hlexemes⟩ := tokens_render h request htokens
  rw [Query.ofText_of_tokens hothers, Query.ofTokens_iff, hlexemes]
  have hname : (String.ofList t.nameLine).toList.head? = some '@' := by
    rw [String.toList_ofList]
    rfl
  have hintent (intent : List Char) :
      (String.ofList (intentLine intent)).toList.head? = some '@' := by
    rw [String.toList_ofList]
    rfl
  refine ⟨_, .metadata hname (metadata_nameLine h) <|
    .metadata (hintent _) (metadata_intentLine (notMem_intentOf _).1) <| .body hbody, ?_⟩
  rw [Assignment.applyAll_cons, Assignment.applyAll_cons]
  exact (Assignment.applyAll_named hbody.isUnnamed {} _ _).symm

end Template

namespace Phrasebook

/-- The template is the first of the book that fits the request, or the fallback if none does. -/
inductive Chooses (book : Phrasebook) (request : String) : Template → Prop
  | first {before after : List Template} {t : Template} :
      book.templates = before ++ t :: after → (∀ other ∈ before, ¬ other.Fits request) →
      t.Fits request → Chooses book request t
  | fallback : (∀ t ∈ book.templates, ¬ t.Fits request) → Chooses book request book.fallback

theorem chooses_choose (book : Phrasebook) (request : String) :
    book.Chooses request (book.choose request) := by
  unfold choose
  cases hfind : book.templates.find? (·.matchesLowered (lower request.toList)) with
  | none =>
      refine .fallback fun t ht hfits => ?_
      exact List.find?_eq_none.1 hfind t ht (Template.matchesLowered_iff.2 hfits)
  | some t =>
      obtain ⟨hmatches, before, after, hsplit, hbefore⟩ := List.find?_eq_some_iff_append.1 hfind
      refine .first hsplit (fun other hother hfits => ?_) (Template.matchesLowered_iff.1 hmatches)
      have hunmatched := hbefore other hother
      rw [Template.matchesLowered_iff.2 hfits] at hunmatched
      cases hunmatched

theorem Chooses.mem {book : Phrasebook} {request : String} {t : Template}
    (h : book.Chooses request t) : t ∈ book.fallback :: book.templates := by
  cases h with
  | first hsplit _ _ => simp [hsplit]
  | fallback _ => exact List.mem_cons_self

theorem ofText_findUsers :
    Query.ofText findUsers.body = .ok {
      target := "users"
      conditions := .ofList [("status", .str "active")]
      limit := some 10 } := by
  have htokens : Token.ofText findUsers.body.toList = .ok [
      ⟨.text "FETCH users", 1⟩, ⟨.opening, 1⟩, ⟨.text "WHERE", 2⟩, ⟨.opening, 2⟩,
      ⟨.text "status: active", 3⟩, ⟨.closing, 4⟩, ⟨.text "LIMIT 10", 5⟩, ⟨.closing, 6⟩] := by
    decide +kernel
  have hoperation : Grammar.Operation "FETCH users" (.operation .fetch "users") :=
    .fetch (by decide) (by decide +kernel) rfl
  have hentry : Grammar.Entry .conditions "status: active" (.condition "status" (.str "active")) :=
    .condition rfl (Literal.read_of_not_bracketed? rfl)
  have hlimit : Grammar.Directive "LIMIT 10" (.limit 10) := .limit (by decide) rfl rfl
  have hitems := Grammar.Items.cons (.entries (.cons hentry .nil))
    (.cons (.directive hlimit) .nil)
  rw [Query.ofText_of_tokens htokens]
  exact Query.ofTokens_iff.2 ⟨_, .body (.block hoperation hitems), rfl⟩

theorem ofText_countOrders :
    Query.ofText countOrders.body = .ok {
      target := "orders"
      aggregations := .ofList [("total", ⟨.count, none⟩)] } := by
  have htokens : Token.ofText countOrders.body.toList = .ok [
      ⟨.text "FETCH orders", 1⟩, ⟨.opening, 1⟩, ⟨.text "COMPUTE", 2⟩, ⟨.opening, 2⟩,
      ⟨.text "total: COUNT()", 3⟩, ⟨.closing, 4⟩, ⟨.closing, 5⟩] := by
    decide +kernel
  have hoperation : Grammar.Operation "FETCH orders" (.operation .fetch "orders") :=
    .fetch (by decide) (by decide +kernel) rfl
  have hentry : Grammar.Entry .aggregations "total: COUNT()"
      (.aggregation "total" ⟨.count, none⟩) := .aggregation rfl rfl
  have hitems := Grammar.Items.cons (.entries (.cons hentry .nil)) .nil
  rw [Query.ofText_of_tokens htokens]
  exact Query.ofTokens_iff.2 ⟨_, .body (.block hoperation hitems), rfl⟩

theorem ofText_anyData : Query.ofText anyData.body = .ok { target := "data", limit := some 10 } := by
  have htokens : Token.ofText anyData.body.toList = .ok [
      ⟨.text "FETCH data", 1⟩, ⟨.opening, 1⟩, ⟨.text "LIMIT 10", 2⟩, ⟨.closing, 3⟩] := by
    decide +kernel
  have hoperation : Grammar.Operation "FETCH data" (.operation .fetch "data") :=
    .fetch (by decide) (by decide +kernel) rfl
  have hlimit : Grammar.Directive "LIMIT 10" (.limit 10) := .limit (by decide) rfl rfl
  have hitems := Grammar.Items.cons (.directive hlimit) .nil
  rw [Query.ofText_of_tokens htokens]
  exact Query.ofTokens_iff.2 ⟨_, .body (.block hoperation hitems), rfl⟩

/-- The templates at hand are sound. -/
theorem sound_of_mem_standard : ∀ t ∈ standard.fallback :: standard.templates, t.Sound := by
  have hsound {t : Template} {q : Query} (hne : t.name.toList ≠ [])
      (hunblank : t.name.toList.any isBlank = false)
      (hplain : t.name.toList.all (decide <| Token.IsPlain ·) = true)
      (hunnamed : ∀ line ∈ pieces (· == '\n') t.body.toList,
        (line.dropWhile isBlank).head? ≠ some '@')
      (hbody : Query.ofText t.body = .ok q) : t.Sound :=
    ⟨hne, by simpa using hunblank, by simpa using hplain, hunnamed, q, hbody⟩
  intro t ht
  simp only [standard, List.mem_cons, List.not_mem_nil, or_false] at ht
  rcases ht with rfl | rfl | rfl
  · exact hsound (by decide) (by decide) (by decide) (by decide) ofText_anyData
  · exact hsound (by decide) (by decide) (by decide) (by decide) ofText_findUsers
  · exact hsound (by decide) (by decide) (by decide) (by decide) ofText_countOrders

end Phrasebook

namespace Query

/-- Every request makes the query of the template that is chosen for it, with the name of the
template and, as intent, the request on one line with apostrophes for quotation marks. -/
theorem ofText_draft {book : Phrasebook}
    (hsound : ∀ t ∈ book.fallback :: book.templates, t.Sound) (request : String) :
    book.Chooses request (book.choose request) ∧
      ∃ q, ofText (book.choose request).body = .ok q ∧
        ofText (book.draft request) = .ok { q with
          name := (book.choose request).name
          intent := String.ofList (strip (collapseBlanks (request.toList.map Template.unmark))) } := by
  have hchooses := book.chooses_choose request
  have h := hsound _ hchooses.mem
  obtain ⟨q, hq⟩ := h.body
  refine ⟨hchooses, q, hq, ?_⟩
  rw [← Template.intentOf_eq]
  exact Template.ofText_render h request hq

/-- A request that would end its quotation marks, its line and its block does none of it. -/
theorem ofText_draft_of_marks :
    let request := "Find \"the user\"\n@QUERY \x7b x \x7d"
    let book := Phrasebook.standard
    (∀ t ∈ book.fallback :: book.templates, t.Sound) ∧
      book.Chooses request Phrasebook.findUsers ∧
        ofText (book.draft request) = .ok {
          name := "find_users"
          intent := "Find 'the user' @QUERY \x7b x \x7d"
          target := "users"
          conditions := .ofList [("status", .str "active")]
          limit := some 10 } := by
  intro request book
  obtain ⟨hchooses, q, hbody, hdraft⟩ :=
    ofText_draft Phrasebook.sound_of_mem_standard request
  have hmatches : Phrasebook.findUsers.matchesLowered (lower request.toList) = true := by
    decide +kernel
  have hchoose : Phrasebook.standard.choose request = Phrasebook.findUsers :=
    congrArg (Option.getD · Phrasebook.anyData) (List.find?_cons_of_pos hmatches)
  have hintent : String.ofList (strip (collapseBlanks (request.toList.map Template.unmark))) =
      "Find 'the user' @QUERY \x7b x \x7d" := by decide +kernel
  rw [hchoose] at hchooses hbody hdraft
  rw [hintent] at hdraft
  obtain rfl := Except.ok.inj (Phrasebook.ofText_findUsers.symm.trans hbody)
  exact ⟨Phrasebook.sound_of_mem_standard, hchooses, hdraft⟩

end Query

end PropertyGraph
