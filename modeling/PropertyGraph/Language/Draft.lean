import PropertyGraph.Language.Entry
import PropertyGraph.Language.Token

/-!
Queries under construction. A draft takes one token after another: metadata lines first, then the
operation line, then the items of the body, which braces may enclose. `Query.ofTokens` runs a draft
over all tokens of a text.
-/

namespace PropertyGraph

open Text

/-- What a draft expects next. -/
inductive Stage where
  /-- Metadata, the operation, or the first item of the body. -/
  | header
  /-- The brace that opens the block, or an item of a body without block. -/
  | operation
  /-- An item of the body; within a block, its end too. -/
  | body (inBlock : Bool)
  /-- The brace that opens a section. -/
  | heading (part : Section) (line : Nat) (inBlock : Bool)
  /-- An entry of a section, or the section's end. -/
  | entries (part : Section) (line : Nat) (found : List (String × Nat)) (inBlock : Bool)
  /-- Nothing: the block is closed. -/
  | done
  deriving DecidableEq

structure Draft where
  query : Query
  stage : Stage

namespace Draft

def empty : Draft := ⟨{}, .header⟩

/-- A fault on the line of a token. -/
def fail (fault : Fault) (line : Nat) : Except TextError α := .error ⟨fault, some line⟩

/-- The first text between quotation marks. -/
def firstQuoted? (text : List Char) : Option (List Char) := do
  let after ← (cut '"' text).2
  match cut '"' after with
  | (inside, some _) => some inside
  | (_, none) => none

/-- Take a metadata line: the name or the intent of the query. -/
def metadata (q : Query) (chunk : String) : Except Fault Query :=
  let (keyword, rest?) := cut ' ' chunk.toList
  let rest := strip (rest?.getD [])
  match String.ofList keyword with
  | "@QUERY" =>
    match words rest with
    | name :: _ => .ok { q with name := String.ofList name }
    | [] => .error .nameRequired
  | "@INTENT" => .ok { q with intent := String.ofList ((firstQuoted? rest).getD rest) }
  | other => .error (.unknownDirective other)

/-- The first word of a text. -/
def firstWord (chunk : String) : String := String.ofList ((words chunk.toList).headD [])

/-- The line belongs to a body, by its first word. -/
def isBodyLine (chunk : String) : Bool :=
  let first := firstWord chunk
  (Section.ofKeyword? first).isSome || first == "SORT" || first == "LIMIT"

/-- An operation line: a name, and the target after blanks if there is one. -/
def operationLine? (chunk : String) : Option (String × String) :=
  let text := chunk.toList
  let (name, rest) := text.span isWordChar
  let target := rest.dropWhile isBlank
  let isTargetChar := fun c => isWordChar c || c == '.' || c == ':' || c == '-'
  let startsName := text.head?.any fun c => c.isAlpha || c == '_'
  if startsName && target.all isTargetChar && (rest.isEmpty || target.length < rest.length) then
    some (String.ofList name, String.ofList target)
  else none

/-- The sort directive `SORT BY field` with an optional order, ascending by default. -/
def sortDirective? (chunk : String) : Option Sorting :=
  let isBy (word : List Char) := String.ofList (upper word) == "BY"
  match words chunk.toList with
  | [head, preposition, field] =>
    if String.ofList head == "SORT" && isBy preposition && isFieldName field then
      some ⟨String.ofList field, .asc⟩
    else none
  | [head, preposition, field, direction] =>
    if String.ofList head == "SORT" && isBy preposition && isFieldName field then
      (SortOrder.ofName? (String.ofList (upper direction))).map fun order =>
        ⟨String.ofList field, order⟩
    else none
  | _ => none

/-- The digits of the directive `LIMIT n`. -/
def limitDigits? (chunk : String) : Option (List Char) :=
  match words chunk.toList with
  | [head, digits] =>
    if String.ofList head == "LIMIT" && digits.all isDigit then some digits else none
  | _ => none

/-- Take a sort or limit directive. -/
def directive (q : Query) (chunk : String) : Except Fault Query :=
  if "SORT".toList.isPrefixOf chunk.toList then
    match sortDirective? chunk with
    | some sorting => .ok { q with sorting := some sorting }
    | none => .error (.invalidSort chunk)
  else if "LIMIT".toList.isPrefixOf chunk.toList then
    match limitDigits? chunk with
    | none => .error (.invalidLimit chunk)
    | some digits =>
      match Numeral.natural digits with
      | .ok n => .ok { q with limit := some n }
      | .error e => .error (.oversizedInteger e)
  else .error (.unexpectedLine chunk)

/-- Take a text of the body: the heading of a section, or a directive. -/
def bodyLine (q : Query) (inBlock : Bool) (chunk : String) (line : Nat) :
    Except TextError Draft :=
  match Section.ofKeyword? chunk with
  | some part => .ok ⟨q, .heading part line inBlock⟩
  | none =>
    match Section.ofKeyword? (firstWord chunk) with
    | some part => fail (.openingExpected part.keyword) line
    | none => do return ⟨← onLine (some line) (directive q chunk), .body inBlock⟩

/-- Take a token of the body. -/
def body (q : Query) (inBlock : Bool) (token : Token) : Except TextError Draft :=
  match token.lexeme with
  | .closing => if inBlock then .ok ⟨q, .done⟩ else fail .unbalancedClosing token.line
  | .opening => fail .unexpectedOpening token.line
  | .text chunk => bodyLine q inBlock chunk token.line

/-- Take a text of the header. -/
def headerLine (q : Query) (chunk : String) (token : Token) : Except TextError Draft :=
  if chunk.toList.head? = some '@' then
    do return ⟨← onLine (some token.line) (metadata q chunk), .header⟩
  else if isBodyLine chunk then body q false token
  else
    match operationLine? chunk with
    | some (name, target) =>
      .ok ⟨{ q with operation := .named name, target := target }, .operation⟩
    | none => fail (.invalidOperation chunk) token.line

/-- Add the entries of a section, each on its line. -/
def addEntries (q : Query) (part : Section) : List (String × Nat) → Except TextError Query
  | [] => .ok q
  | (chunk, line) :: rest => do
    addEntries (← onLine (some line) (Entry.addTo q part chunk)) part rest

/-- Take the next token. -/
def step (draft : Draft) (token : Token) : Except TextError Draft :=
  let q := draft.query
  match draft.stage, token.lexeme with
  | .header, .text chunk => headerLine q chunk token
  | .header, brace => fail (.braceBeforeOperation brace.spelling) token.line
  | .operation, .opening => .ok ⟨q, .body true⟩
  | .operation, _ => body q false token
  | .body inBlock, _ => body q inBlock token
  | .heading part line inBlock, .opening => .ok ⟨q, .entries part line [] inBlock⟩
  | .heading part line _, _ => fail (.openingExpected part.keyword) line
  | .entries part line found inBlock, .text chunk =>
    .ok ⟨q, .entries part line (found ++ [(chunk, token.line)]) inBlock⟩
  | .entries part _ found inBlock, .closing => do
    return ⟨← addEntries q part found, .body inBlock⟩
  | .entries part _ _ _, .opening => fail (.nestedOpening part) token.line
  | .done, lexeme => fail (.contentAfterBlock lexeme.spelling) token.line

/-- The query of a draft that has taken all tokens, the last of them on the given line. -/
def finish (draft : Draft) (lastLine : Option Nat) : Except TextError Query :=
  match draft.stage with
  | .header | .operation | .body false | .done => .ok draft.query
  | .body true => .error ⟨.unclosedBlock, lastLine.map Int.ofNat⟩
  | .heading part line _ => fail (.openingExpected part.keyword) line
  | .entries part line _ _ => fail (.unclosedSection part) line

end Draft

namespace Query

/-- The query that tokens describe. -/
def ofTokens (tokens : List Token) : Except TextError Query := do
  let draft ← tokens.foldlM Draft.step .empty
  draft.finish (tokens.getLast?.map Token.line)

/-- The query that a text describes. -/
def ofText (text : String) : Except TextError Query := do
  ofTokens (← Token.ofText text.toList)

end Query

end PropertyGraph
