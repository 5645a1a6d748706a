import PropertyGraph.Proofs.Language.Block
import PropertyGraph.Proofs.Language.Entry

/-!
Texts that ask for a traversal: a target, a start between quotation marks, and labels in brackets.
Such a text makes a query exactly if its labels can be read. The path of the query is what they are
read as.
-/

namespace PropertyGraph

open Text

namespace TraversalText

/-- The operation and what it is done on. -/
def heading (target : List Char) : List Char := "GRAPH_TRAVERSE".toList ++ ' ' :: target

theorem isOperationName : IsOperationName "GRAPH_TRAVERSE".toList := by decide

/-- The entry of a start between quotation marks. -/
def startEntry (start : List Char) : List Char :=
  "start".toList ++ ':' :: ' ' :: '"' :: (start ++ ['"'])

/-- The entry of labels in brackets, with commas between them. -/
def pathEntry (labels : List (List Char)) : List Char :=
  "path".toList ++ ':' :: ' ' :: '[' :: (join ", ".toList labels ++ [']'])

def lines (target start : List Char) (labels : List (List Char)) : List (List Char) :=
  [heading target ++ [' ', '\x7b'], "WHERE \x7b".toList, startEntry start, pathEntry labels,
    ['\x7d'], ['\x7d']]

/-- The text of the request. -/
def render (target start : String) (labels : List String) : String :=
  String.ofList (join ['\n'] (lines target.toList start.toList (labels.map String.toList)))

example : render "user" "user:1" ["HAS_ORDER", "CONTAINS"] =
    "GRAPH_TRAVERSE user \x7b\nWHERE \x7b\nstart: \"user:1\"\n" ++
      "path: [HAS_ORDER, CONTAINS]\n\x7d\n\x7d" := by
  decide +kernel

def lexemes (target start : List Char) (labels : List (List Char)) : List Lexeme :=
  [.text (String.ofList (heading target)), .opening, .text "WHERE", .opening,
    .text (String.ofList (startEntry start)), .text (String.ofList (pathEntry labels)), .closing,
    .closing]

variable {target start : List Char} {labels : List (List Char)}

theorem ofLine_heading (h : IsTarget target) :
    Token.ofLine (heading target ++ [' ', '\x7b']) =
      some [.text (String.ofList (heading target)), .opening] :=
  ofLine_operationLine isOperationName h []

theorem ofLine_startEntry (h : '"' ∉ start) :
    Token.ofLine (startEntry start) = some [.text (String.ofList (startEntry start))] :=
  Entry.ofLine_quoted (by decide) h

/-- A character of the path is one of a label, or stands around labels. -/
theorem mem_pathEntry {c : Char} (h : c ∈ pathEntry labels) :
    c ∈ "path: [], ".toList ∨ ∃ label ∈ labels, c ∈ label := by
  have hpath : pathEntry labels = "path: [".toList ++ join ", ".toList labels ++ [']'] := rfl
  rw [hpath, List.mem_append, List.mem_append] at h
  rcases h with (h | h) | h
  · exact .inl (List.mem_append_left "], ".toList h)
  · refine (mem_join h).imp_left fun h => ?_
    exact List.mem_append_right "path: []".toList h
  · rw [List.mem_singleton.1 h]
    exact .inl (by decide)

theorem ofLine_pathEntry (h : ∀ label ∈ labels, Literal.IsWord label) :
    Token.ofLine (pathEntry labels) = some [.text (String.ofList (pathEntry labels))] := by
  have hplain : ∀ c ∈ pathEntry labels, Token.IsPlain c := by
    intro c hc
    rcases mem_pathEntry hc with hc | ⟨label, hlabel, hc⟩
    · have hall : ∀ c ∈ "path: [], ".toList, Token.IsPlain c := by simp [Token.IsPlain]
      exact hall c hc
    · refine ⟨?_, ?_, ?_⟩
      all_goals
        rintro rfl
        exact (h label hlabel).notMem (by decide) hc
  have hstrip : strip (pathEntry labels) = pathEntry labels := by
    have henclosed : pathEntry labels =
        'p' :: ("ath: [".toList ++ join ", ".toList labels ++ [']']) := rfl
    rw [henclosed]
    exact strip_enclosed (by decide) (by decide) _
  have hne : pathEntry labels ≠ [] := List.append_ne_nil_of_right_ne_nil _ (List.cons_ne_nil _ _)
  rw [Token.ofLine_of_plain hplain, Token.ofChunk_of_strip hne hstrip]

theorem tokens_lines (htarget : IsTarget target) (hstart : '"' ∉ start)
    (hlabels : ∀ label ∈ labels, Literal.IsWord label) :
    ∃ tokens, Token.ofLines 1 (lines target start labels) = .ok tokens ∧
      tokens.map Token.lexeme = lexemes target start labels := by
  have hwhere : Token.ofLine "WHERE \x7b".toList = some [.text "WHERE", .opening] := by decide
  have hclosing : Token.ofLine ['\x7d'] = some [.closing] := by decide
  exact ⟨_, Token.ofLines_cons_ok (ofLine_heading htarget) <|
    Token.ofLines_cons_ok hwhere <| Token.ofLines_cons_ok (ofLine_startEntry hstart) <|
    Token.ofLines_cons_ok (ofLine_pathEntry hlabels) <| Token.ofLines_cons_ok hclosing <|
    Token.ofLines_cons_ok hclosing rfl, rfl⟩

theorem entry_start_iff {a : Assignment} :
    Grammar.Entry .conditions (String.ofList (startEntry start)) a ↔
      a = .condition "start" (.str (String.ofList start)) :=
  Grammar.condition_quoted_iff (by decide)

theorem entry_path_iff (hne : labels ≠ []) (h : ∀ label ∈ labels, Literal.IsWord label)
    {a : Assignment} :
    Grammar.Entry .conditions (String.ofList (pathEntry labels)) a ↔
      ∃ values, labels.mapM Literal.read = .ok values ∧ a = .condition "path" (.tuple values) := by
  have hsplit : Entry.split? (String.ofList (pathEntry labels)).toList =
      some ("path", '[' :: (join ", ".toList labels ++ [']'])) := by
    have hname : isFieldName "path".toList = true := by decide
    have hentry := Entry.split?_of_colon hname ('[' :: (join ", ".toList labels ++ [']']))
    rw [strip_enclosed (by decide) (by decide)] at hentry
    rw [String.toList_ofList]
    exact hentry
  rw [Grammar.condition_iff hsplit, Literal.read_words hne h]
  cases labels.mapM Literal.read with
  | error e => exact iff_of_false nofun nofun
  | ok values => simp [Functor.map, Except.map]

theorem lexemes_eq (target start : List Char) (labels : List (List Char)) :
    lexemes target start labels = sectionLexemes "GRAPH_TRAVERSE".toList target .conditions
      [String.ofList (startEntry start), String.ofList (pathEntry labels)] := rfl

/-- What the request assigns. -/
def assignments (target start : List Char) (values : List Value) : List Assignment :=
  [.operation .traverse (String.ofList target), .condition "start" (.str (String.ofList start)),
    .condition "path" (.tuple values)]

/-- The request is a sentence exactly if its labels can be read. -/
theorem sentence_iff (htarget : IsTarget target) (hne : labels ≠ [])
    (h : ∀ label ∈ labels, Literal.IsWord label) {assigned : List Assignment} :
    Grammar.Sentence (lexemes target start labels) assigned ↔
      ∃ values, labels.mapM Literal.read = .ok values ∧
        assigned = assignments target start values := by
  have hnamed : Operation.named (String.ofList "GRAPH_TRAVERSE".toList) = .traverse := by
    decide +kernel
  rw [lexemes_eq, sentence_section_iff isOperationName htarget, hnamed]
  constructor
  · rintro ⟨bound, hentries, rfl⟩
    cases hentries with
    | cons hstart hentries =>
        cases hentries with
        | cons hpath hnone =>
            cases hnone
            obtain rfl := entry_start_iff.1 hstart
            obtain ⟨values, hvalues, rfl⟩ := (entry_path_iff hne h).1 hpath
            exact ⟨values, hvalues, rfl⟩
  · rintro ⟨values, hvalues, rfl⟩
    exact ⟨_, .cons (entry_start_iff.2 rfl)
      (.cons ((entry_path_iff hne h).2 ⟨values, hvalues, rfl⟩) .nil), rfl⟩

theorem newline_notMem_lines (htarget : IsTarget target) (hstart : '\n' ∉ start)
    (h : ∀ label ∈ labels, Literal.IsWord label) :
    ∀ line ∈ lines target start labels, '\n' ∉ line := by
  have hheading : '\n' ∉ heading target ++ [' ', '\x7b'] := by
    rw [List.mem_append, not_or]
    exact ⟨newline_notMem_operationLine isOperationName htarget, by decide⟩
  have hentry : '\n' ∉ startEntry start := Entry.newline_notMem_quoted (by decide) hstart
  have hpath : '\n' ∉ pathEntry labels := by
    intro hmem
    rcases mem_pathEntry hmem with hmem | ⟨label, hlabel, hmem⟩
    · exact absurd hmem (by decide)
    · exact (h label hlabel).notMem (by decide) hmem
  simp only [lines, List.forall_mem_cons]
  exact ⟨hheading, by decide, hentry, hpath, by decide, by decide, fun _ hline => nomatch hline⟩

/-- The query of the request, with the values that its labels are read as. -/
def query (target start : String) (values : List Value) : Query where
  operation := .traverse
  target := target
  conditions := .ofList [("start", .str start), ("path", .tuple values)]

/-- The request makes a query exactly if its labels can be read. -/
theorem ofText_render_iff {target start : String} {labels : List String}
    (htarget : IsTarget target.toList) (hmark : '"' ∉ start.toList) (hline : '\n' ∉ start.toList)
    (hne : labels ≠ []) (h : ∀ label ∈ labels, Literal.IsWord label.toList) {q : Query} :
    Query.ofText (render target start labels) = .ok q ↔
      ∃ values, labels.mapM (fun label => Literal.read label.toList) = .ok values ∧
        q = query target start values := by
  have hwords : ∀ label ∈ labels.map String.toList, Literal.IsWord label := by
    simpa only [List.forall_mem_map] using h
  have htext : Token.ofText (render target start labels).toList =
      Token.ofLines 1 (lines target.toList start.toList (labels.map String.toList)) := by
    rw [render, String.toList_ofList]
    exact Token.ofText_join (List.cons_ne_nil _ _) (newline_notMem_lines htarget hline hwords)
  obtain ⟨tokens, htokens, hlexemes⟩ := tokens_lines htarget hmark hwords
  rw [← htext] at htokens
  have hvalues (values : List Value) : Assignment.applyAll {}
      (assignments target.toList start.toList values) = query target start values := by
    simp only [assignments, String.ofList_toList]
    rfl
  rw [Query.ofText_of_tokens htokens, Query.ofTokens_iff, hlexemes]
  simp only [sentence_iff htarget (mt List.map_eq_nil_iff.1 hne) hwords, List.mapM_map]
  constructor
  · rintro ⟨_, ⟨values, hread, rfl⟩, rfl⟩
    exact ⟨values, hread, hvalues values⟩
  · rintro ⟨values, hread, rfl⟩
    exact ⟨_, ⟨values, hread, rfl⟩, (hvalues values).symm⟩

end TraversalText

end PropertyGraph
