import PropertyGraph.Document.Plain
import PropertyGraph.Document.Quoted
import PropertyGraph.Document.Token

/-!
The tokens of a text. A layout keeps what the tokens so far have opened: the columns of the block
collections, the brackets, and, at each depth of brackets, a place where a key may have begun. A
key is only known as one when its colon is found; its token, and the start of the mapping that it
opens, are then put before it.
-/

namespace PropertyGraph.Document

/-- A place where a key may have begun. -/
structure PossibleKey where
  /-- The number of tokens before it. -/
  before : Nat
  mark : Mark
  /-- It stands where the block that holds it needs a key. -/
  required : Bool

/-- The longest distance from the start of a key to its colon. -/
def keyLengthLimit : Nat := 1024

/-- The colon of a key is on its line and not too far from its start. -/
def PossibleKey.reaches (key : PossibleKey) (mark : Mark) : Bool :=
  key.mark.line == mark.line && mark.index ≤ key.mark.index + keyLengthLimit

structure Layout where
  /-- The tokens so far, last first. -/
  tokens : List Token := []
  count : Nat := 0
  /-- The columns of the open block collections, innermost first. -/
  columns : List Nat := []
  possibleKey? : Option PossibleKey := none
  /-- The possible keys outside each open bracket, innermost first. -/
  outside : List (Option PossibleKey) := []
  keyAllowed : Bool := true

namespace Layout

def inFlow (layout : Layout) : Bool := !layout.outside.isEmpty

def emit (layout : Layout) (token : Token) : Layout :=
  { layout with tokens := token :: layout.tokens, count := layout.count + 1 }

/-- Put tokens before the last ones. -/
def emitBefore (layout : Layout) (before : Nat) (tokens : List Token) : Layout :=
  let later := layout.count - before
  { layout with
    tokens := layout.tokens.take later ++ tokens.reverse ++ layout.tokens.drop later
    count := layout.count + tokens.length }

/-- Close the block collections at the given columns. -/
def closeColumns (layout : Layout) (isInner : Nat → Bool) : Layout :=
  let closed := layout.columns.takeWhile isInner
  closed.foldl (fun layout _ => layout.emit .blockEnd)
    { layout with columns := layout.columns.drop closed.length }

/-- Close the block collections that are further in than a column. -/
def unwind (layout : Layout) (column : Nat) : Layout :=
  if layout.inFlow then layout else layout.closeColumns (column < ·)

/-- A collection that starts at a column is a new one. -/
def isDeeper (layout : Layout) (column : Nat) : Bool :=
  layout.columns.head?.all (· < column)

/-- Open a block collection at a column, unless the innermost one stands there. -/
def openBlock (layout : Layout) (column : Nat) (start : Token) : Layout :=
  if layout.isDeeper column then
    { layout with columns := column :: layout.columns }.emit start
  else layout

/-- Give up the possible key. A required one must not be given up. -/
def dropKey (layout : Layout) : Option Layout :=
  if layout.possibleKey?.any (·.required) then none
  else some { layout with possibleKey? := none }

/-- A key may begin here, if keys are allowed. -/
def markKey (layout : Layout) (mark : Mark) : Option Layout :=
  if layout.keyAllowed then do
    let layout ← layout.dropKey
    let required := !layout.inFlow && layout.columns.head? == some mark.column
    return { layout with possibleKey? := some ⟨layout.count, mark, required⟩ }
  else some layout

def allowKey (layout : Layout) (allowed : Bool) : Layout := { layout with keyAllowed := allowed }

/-- A scalar, and whether a key may begin after it. -/
def scalar (layout : Layout) (mark : Mark) (text : List Char) (isQuoted keyAllowed : Bool) :
    Option Layout := do
  let layout ← layout.markKey mark
  return (layout.emit (.scalar text isQuoted)).allowKey keyAllowed

/-- An opening bracket. -/
def openFlow (layout : Layout) (mark : Mark) (start : Token) : Option Layout := do
  let layout ← layout.markKey mark
  let outside := layout.possibleKey? :: layout.outside
  return ({ layout with possibleKey? := none, outside }.emit start).allowKey true

/-- A closing bracket. -/
def closeFlow (layout : Layout) (finish : Token) : Option Layout := do
  let layout ← layout.dropKey
  match layout.outside with
  | [] => none
  | possibleKey? :: outside =>
    some (({ layout with possibleKey?, outside }.emit finish).allowKey false)

/-- A comma. -/
def flowEntry (layout : Layout) : Option Layout := do
  let layout ← layout.dropKey
  return (layout.emit .flowEntry).allowKey true

/-- The hyphen of an entry in a block sequence. -/
def blockEntry (layout : Layout) (mark : Mark) : Option Layout :=
  if layout.inFlow || !layout.keyAllowed then none
  else do
    let layout ← (layout.openBlock mark.column .blockSequenceStart).dropKey
    return (layout.emit .blockEntry).allowKey true

/-- The colon before a value. -/
def value (layout : Layout) (mark : Mark) : Option Layout := do
  match layout.possibleKey?.filter (·.reaches mark) with
  | some key =>
    let opens := !layout.inFlow && layout.isDeeper key.mark.column
    let layout :=
      if opens then { layout with columns := key.mark.column :: layout.columns } else layout
    let tokens := if opens then [.blockMappingStart, .key] else [.key]
    return ({ layout.emitBefore key.before tokens with possibleKey? := none }.emit .value).allowKey
      false
  | none =>
    let layout ← layout.dropKey
    if layout.inFlow then return (layout.emit .value).allowKey false
    else if layout.keyAllowed then
      return ((layout.openBlock mark.column .blockMappingStart).emit .value).allowKey true
    else none

/-- A separator of documents. -/
def separator (layout : Layout) (c : Char) : Option Layout := do
  let layout ← (layout.closeColumns fun _ => true).dropKey
  return (layout.emit (if c = '-' then .documentStart else .documentEnd)).allowKey false

/-- The tokens, once the text has ended. -/
def finish (layout : Layout) : Option (List Token) := do
  let layout ← (layout.closeColumns fun _ => true).dropKey
  return layout.tokens.reverse

end Layout

/-- The text without the blanks, comments and ends of lines before the next token, and whether an
end of line was among them. -/
def skipGap : List Spot → Bool × List Spot
  | [] => (false, [])
  | s :: rest =>
    if s.char = ' ' then skipGap rest
    else if isBreak s.char then (true, (skipGap rest).2)
    else if s.char = '#' then skipComment rest
    else (false, s :: rest)
where
  skipComment : List Spot → Bool × List Spot
    | [] => (false, [])
    | s :: rest => if isBreak s.char then (true, (skipGap rest).2) else skipComment rest

mutual

theorem length_skipGap_le : ∀ text : List Spot, (skipGap text).2.length ≤ text.length
  | [] => by simp [skipGap]
  | s :: rest => by
    have gap := length_skipGap_le rest
    have comment := length_skipComment_le rest
    rw [skipGap]
    simp only [List.length_cons]
    split
    · omega
    · split
      · dsimp only
        omega
      · split
        · omega
        · simp

theorem length_skipComment_le :
    ∀ text : List Spot, (skipGap.skipComment text).2.length ≤ text.length
  | [] => by simp [skipGap.skipComment]
  | s :: rest => by
    have gap := length_skipGap_le rest
    have comment := length_skipComment_le rest
    rw [skipGap.skipComment]
    simp only [List.length_cons]
    split
    · dsimp only
      omega
    · omega

end

/-- The layout after the token at the start of a text, and the text after it. -/
def nextToken (layout : Layout) (s : Spot) (rest : List Spot) :
    Option (Layout × { after : List Spot // after.length ≤ rest.length }) :=
  let one (result : Option Layout) := result.map fun layout => (layout, ⟨rest, Nat.le_refl _⟩)
  if s.mark.column = 0 && atSeparator (s :: rest) then
    (layout.separator s.char).map fun layout =>
      (layout, ⟨rest.drop 2, by simp⟩)
  else
    match s.char with
    | '[' => one (layout.openFlow s.mark .flowSequenceStart)
    | '\x7b' => one (layout.openFlow s.mark .flowMappingStart)
    | ']' => one (layout.closeFlow .flowSequenceEnd)
    | '\x7d' => one (layout.closeFlow .flowMappingEnd)
    | ',' => one layout.flowEntry
    | '\'' =>
      match h : singleQuoted rest with
      | none => none
      | some (glyphs, after) =>
        (layout.scalar s.mark (joinGlyphs glyphs) true false).map fun layout =>
          (layout, ⟨after, Nat.le_of_lt (length_lt_of_singleQuoted h)⟩)
    | '"' =>
      match h : doubleQuoted rest with
      | none => none
      | some (glyphs, after) =>
        (layout.scalar s.mark (joinGlyphs glyphs) true false).map fun layout =>
          (layout, ⟨after, Nat.le_of_lt (length_lt_of_doubleQuoted h)⟩)
    | c =>
      if c = '-' && atGap rest then one (layout.blockEntry s.mark)
      else if c = ':' && (layout.inFlow || atGap rest) then one (layout.value s.mark)
      else if startsPlain layout.inFlow (s :: rest) then
        let indent := layout.columns.head?.elim 0 (· + 1)
        let found := plainScalar layout.inFlow indent (s :: rest)
        if h : found.text = [] then none
        else
          (layout.scalar s.mark found.text false found.endsLine).map fun layout =>
            (layout, ⟨found.rest, Nat.le_of_lt_succ (length_plainScalar_lt h)⟩)
      else none

/-- The tokens of a text, after those of a layout. -/
def tokensFrom (layout : Layout) (text : List Spot) : Option (List Token) :=
  match h : skipGap text with
  | (_, []) => layout.finish
  | (brokeLine, s :: rest) =>
    let layout := if brokeLine && !layout.inFlow then layout.allowKey true else layout
    match nextToken (layout.unwind s.mark.column) s rest with
    | none => none
    | some (layout, after) =>
      have : after.1.length < text.length := by
        have skipped := length_skipGap_le text
        have shorter := after.2
        rw [h] at skipped
        simp only [List.length_cons] at skipped
        omega
      tokensFrom layout after.1
termination_by text.length

/-- The tokens of a text. -/
def tokens (text : List Char) : Option (List Token) := tokensFrom {} (spots text)

end PropertyGraph.Document
