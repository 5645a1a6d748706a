import PropertyGraph.Language.Draft

/-!
Lines by other numbers. A draft takes a token by what stands in it; the number of its line is kept
for faults and nothing else. So tokens that are numbered otherwise make the same query, or the same
fault on the line by its other number.
-/

namespace PropertyGraph

variable {f : Nat → Nat}

/-- The token on the line by its other number. -/
def Token.renumber (f : Nat → Nat) (token : Token) : Token := { token with line := f token.line }

/-- The fault on the line by its other number. -/
def TextError.renumber (f : Nat → Nat) (e : TextError) : TextError :=
  { e with line := e.line.map fun n => f n.toNat }

/-- The result, its fault on the line by the other number. -/
def renumberFault (f : Nat → Nat) (result : Except TextError α) : Except TextError α :=
  result.mapError (TextError.renumber f)

@[simp] theorem renumberFault_ok (value : α) :
    renumberFault f (.ok value : Except TextError α) = .ok value := rfl

@[simp] theorem renumberFault_error (e : TextError) :
    renumberFault f (.error e : Except TextError α) = .error (e.renumber f) := rfl

theorem renumberFault_bind (result : Except TextError α) (next : α → Except TextError β) :
    renumberFault f (result >>= next) =
      renumberFault f result >>= fun value => renumberFault f (next value) := by
  cases result <;> rfl

theorem renumberFault_onLine (line : Nat) (result : Except Fault α) :
    renumberFault f (onLine (some (line : Int)) result) = onLine (some (f line : Int)) result := by
  cases result <;> rfl

/-- The stage with the lines that it keeps by their other numbers. -/
def Stage.renumber (f : Nat → Nat) : Stage → Stage
  | .heading part line inBlock => .heading part (f line) inBlock
  | .entries part line found inBlock =>
    .entries part (f line) (found.map fun entry => (entry.1, f entry.2)) inBlock
  | stage => stage

namespace Draft

def renumber (f : Nat → Nat) (draft : Draft) : Draft :=
  { draft with stage := draft.stage.renumber f }

theorem addEntries_renumber (q : Query) (part : Section) (found : List (String × Nat)) :
    addEntries q part (found.map fun entry => (entry.1, f entry.2)) =
      renumberFault f (addEntries q part found) := by
  induction found generalizing q with
  | nil => rfl
  | cons entry rest ih =>
      rw [List.map_cons, addEntries, addEntries, renumberFault_bind, renumberFault_onLine]
      exact congrArg _ (funext fun next => ih next)

theorem bodyLine_renumber (q : Query) (inBlock : Bool) (chunk : String) (line : Nat) :
    bodyLine q inBlock chunk (f line) =
      renumberFault f (renumber f <$> bodyLine q inBlock chunk line) := by
  unfold bodyLine
  cases Section.ofKeyword? chunk with
  | some part => rfl
  | none =>
      cases Section.ofKeyword? (firstWord chunk) with
      | some part => rfl
      | none => cases directive q chunk <;> rfl

theorem body_renumber (q : Query) (inBlock : Bool) (token : Token) :
    body q inBlock (token.renumber f) =
      renumberFault f (renumber f <$> body q inBlock token) := by
  obtain ⟨lexeme, line⟩ := token
  cases lexeme with
  | text chunk => exact bodyLine_renumber q inBlock chunk line
  | opening => rfl
  | closing => cases inBlock <;> rfl

theorem headerLine_renumber (q : Query) (chunk : String) (token : Token) :
    headerLine q chunk (token.renumber f) =
      renumberFault f (renumber f <$> headerLine q chunk token) := by
  unfold headerLine
  split
  case isTrue => cases metadata q chunk <;> rfl
  case isFalse =>
    split
    case isTrue => exact body_renumber q false token
    case isFalse =>
      cases operationLine? chunk with
      | none => rfl
      | some operation => rfl

/-- A step keeps numbers of lines, and looks at none of them. -/
theorem step_renumber (draft : Draft) (token : Token) :
    (draft.renumber f).step (token.renumber f) =
      renumberFault f (renumber f <$> draft.step token) := by
  obtain ⟨query, stage⟩ := draft
  obtain ⟨lexeme, line⟩ := token
  cases stage with
  | header =>
      cases lexeme with
      | text chunk => exact headerLine_renumber query chunk ⟨.text chunk, line⟩
      | opening => rfl
      | closing => rfl
  | operation =>
      cases lexeme with
      | opening => rfl
      | text chunk => exact body_renumber query false ⟨.text chunk, line⟩
      | closing => exact body_renumber query false ⟨.closing, line⟩
  | body inBlock => exact body_renumber query inBlock ⟨lexeme, line⟩
  | heading part first inBlock => cases lexeme <;> rfl
  | entries part first found inBlock =>
      cases lexeme with
      | text chunk =>
          show Except.ok _ = Except.ok _
          simp [renumber, Stage.renumber, Token.renumber]
      | opening => rfl
      | closing =>
          show (addEntries query part (found.map _) >>= _) = _
          rw [addEntries_renumber]
          simp only [step]
          cases addEntries query part found <;> rfl
  | done => cases lexeme <;> rfl

theorem run_renumber (tokens : List Token) (draft : Draft) :
    (tokens.map (Token.renumber f)).foldlM step (draft.renumber f) =
      renumberFault f (renumber f <$> tokens.foldlM step draft) := by
  induction tokens generalizing draft with
  | nil => rfl
  | cons token tokens ih =>
      rw [List.map_cons, List.foldlM_cons, List.foldlM_cons, step_renumber]
      cases draft.step token with
      | error e => rfl
      | ok next => exact ih next

theorem finish_renumber (draft : Draft) (lastLine : Option Nat) :
    (draft.renumber f).finish (lastLine.map f) = renumberFault f (draft.finish lastLine) := by
  obtain ⟨query, stage⟩ := draft
  cases stage with
  | body inBlock => cases inBlock <;> cases lastLine <;> rfl
  | _ => rfl

end Draft

/-- Tokens on other lines make the same query, or the same fault on the other line. -/
theorem Query.ofTokens_renumber (tokens : List Token) :
    ofTokens (tokens.map (Token.renumber f)) = renumberFault f (ofTokens tokens) := by
  have hlast : (tokens.map (Token.renumber f)).getLast?.map Token.line =
      (tokens.getLast?.map Token.line).map f := by
    rw [List.getLast?_map, Option.map_map, Option.map_map]
    rfl
  have hrun := Draft.run_renumber (f := f) tokens .empty
  rw [ofTokens, ofTokens, hlast]
  show ((tokens.map (Token.renumber f)).foldlM Draft.step (Draft.empty.renumber f) >>= _) = _
  rw [hrun]
  cases tokens.foldlM Draft.step .empty with
  | error e => rfl
  | ok draft => exact Draft.finish_renumber draft _

end PropertyGraph
