import PropertyGraph.Document.Spot

/-!
Plain scalars: words without quotation marks. A scalar goes on over blanks, and over the ends of
lines as long as the next word stands further in than the block that holds the scalar; within
brackets the column does not matter.
-/

namespace PropertyGraph.Document

/-- Characters that end a word within brackets. -/
def isFlowIndicator (c : Char) : Bool := [',', '?', '[', ']', '\x7b', '\x7d'].contains c

/-- Characters that open no plain scalar, unless a hyphen, question mark or colon among them is
followed by a word. -/
def isIndicator (c : Char) : Bool := "-?:,[]\x7b\x7d#&*!|>'\"%@\x60".contains c

/-- The text begins with a plain scalar. -/
def startsPlain (inFlow : Bool) : List Spot → Bool
  | [] => false
  | s :: rest =>
    let c := s.char
    !isGap c && (!isIndicator c ||
      (!atGap rest && (c == '-' || (!inFlow && (c == '?' || c == ':')))))

/-- A colon before this text says that the word before it is a key. -/
def endsKey (inFlow : Bool) (text : List Spot) : Bool :=
  atGap text || (inFlow && nextIs (fun c => isFlowIndicator c && c != '?') text)

/-- A word ends before this character. -/
def endsWord (inFlow : Bool) (c : Char) (rest : List Spot) : Bool :=
  isGap c || (c == ':' && endsKey inFlow rest) || (inFlow && isFlowIndicator c)

/-- The word at the start of a text, and the text after it. -/
def word (inFlow : Bool) : List Spot → List Char × List Spot
  | [] => ([], [])
  | s :: rest =>
    if endsWord inFlow s.char rest then ([], s :: rest)
    else ((s.char :: (word inFlow rest).1), (word inFlow rest).2)

theorem length_word (inFlow : Bool) (text : List Spot) :
    (word inFlow text).1.length + (word inFlow text).2.length = text.length := by
  induction text with
  | nil => rfl
  | cons s rest ih =>
    rw [word]
    split
    · simp
    · simp only [List.length_cons]
      omega

/-- What stands between two words: blanks on one line, or ends of lines. -/
inductive Between where
  | blanks (found : List Char)
  | breaks (first : Char) (more : List Char)
  deriving DecidableEq

namespace Between

def text : Between → List Char
  | blanks found => found
  | breaks first more => folded first more

def spansLines : Between → Bool
  | blanks _ => false
  | breaks .. => true

end Between

/-- Further ends of lines, the blanks around them skipped. None if a separator of documents
begins a line. -/
def moreBreaks : List Spot → Option (List Char) × List Spot
  | [] => (some [], [])
  | s :: rest =>
    if s.char = ' ' then moreBreaks rest
    else if isBreak s.char then
      if atSeparator rest then (none, rest)
      else ((moreBreaks rest).1.map (breakChar s.char :: ·), (moreBreaks rest).2)
    else (some [], s :: rest)

theorem length_moreBreaks_le (text : List Spot) :
    (moreBreaks text).2.length ≤ text.length := by
  fun_induction moreBreaks text with
  | case1 => simp
  | case2 s rest _ ih => exact Nat.le_succ_of_le ih
  | case3 s rest => simp
  | case4 s rest _ _ _ ih => exact Nat.le_succ_of_le ih
  | case5 s rest => simp

/-- What stands after a word, and the text after that. Nothing if a separator of documents begins a
line; the text goes on after the end of line even then. -/
structure Gap where
  between? : Option Between
  spansLines : Bool
  rest : List Spot

def gapAfter (text : List Spot) : Gap :=
  let blanks := text.takeWhile (·.char == ' ')
  match text.dropWhile (·.char == ' ') with
  | [] => ⟨some (.blanks (blanks.map Spot.char)), false, []⟩
  | s :: rest =>
    if isBreak s.char then
      if atSeparator rest then ⟨none, true, rest⟩
      else
        let (more?, after) := moreBreaks rest
        ⟨more?.map (.breaks (breakChar s.char)), true, after⟩
    else ⟨some (.blanks (blanks.map Spot.char)), false, s :: rest⟩

theorem length_gapAfter_le (text : List Spot) :
    (gapAfter text).rest.length ≤ text.length := by
  have dropped := (List.dropWhile_sublist (fun s : Spot => s.char == ' ') (l := text)).length_le
  simp only [gapAfter]
  split
  · simp
  · next s rest heq =>
    rw [heq] at dropped
    simp only [List.length_cons] at dropped
    split
    · split
      · dsimp only
        omega
      · have := length_moreBreaks_le rest
        dsimp only
        omega
    · simpa using dropped

/-- A plain scalar, whether the end of a line follows it, and the text after it. -/
structure PlainScalar where
  text : List Char
  endsLine : Bool
  rest : List Spot

/-- The scalar goes on after a gap. -/
def goesOn (inFlow : Bool) (indent : Nat) (gap : Gap) : Bool :=
  match gap.rest with
  | [] => false
  | s :: _ =>
    gap.between?.any (fun between => !between.text.isEmpty) && s.char != '#' &&
      (inFlow || indent ≤ s.mark.column)

/-- The plain scalar at the start of a text. Outside brackets its lines must begin at column
`indent` or further in. -/
def plainScalar (inFlow : Bool) (indent : Nat) (text : List Spot) : PlainScalar :=
  match h : word inFlow text with
  | ([], rest) => ⟨[], false, rest⟩
  | (c :: more, rest) =>
    let gap := gapAfter rest
    if goesOn inFlow indent gap then
      have : gap.rest.length < text.length := by
        have whole := length_word inFlow text
        have part : gap.rest.length ≤ rest.length := length_gapAfter_le rest
        simp only [h, List.length_cons] at whole
        omega
      let next := plainScalar inFlow indent gap.rest
      if next.text.isEmpty then ⟨c :: more, gap.spansLines, gap.rest⟩
      else
        ⟨c :: more ++ (gap.between?.elim [] Between.text) ++ next.text, next.endsLine, next.rest⟩
    else ⟨c :: more, gap.spansLines, gap.rest⟩
termination_by text.length

theorem length_plainScalar_le (inFlow : Bool) (indent : Nat) (text : List Spot) :
    (plainScalar inFlow indent text).rest.length ≤ text.length := by
  fun_induction plainScalar inFlow indent text with
  | case1 text rest h =>
    have whole := length_word inFlow text
    simp only [h] at whole
    dsimp only
    omega
  | case2 text c more rest h gap _ shorter next _ ih =>
    exact Nat.le_of_lt shorter
  | case3 text c more rest h gap _ shorter next _ ih =>
    exact Nat.le_trans ih (Nat.le_of_lt shorter)
  | case4 text c more rest h gap _ =>
    have whole := length_word inFlow text
    have part : gap.rest.length ≤ rest.length := length_gapAfter_le rest
    simp only [h, List.length_cons] at whole
    dsimp only
    omega

/-- A scalar that holds a character takes some of the text. -/
theorem length_plainScalar_lt {inFlow : Bool} {indent : Nat} {text : List Spot}
    (h : (plainScalar inFlow indent text).text ≠ []) :
    (plainScalar inFlow indent text).rest.length < text.length := by
  rw [plainScalar] at h ⊢
  split at h
  · exact absurd rfl h
  · next c more rest found =>
    have whole := length_word inFlow text
    have part : (gapAfter rest).rest.length ≤ rest.length := length_gapAfter_le rest
    simp only [found, List.length_cons] at whole
    have next := length_plainScalar_le inFlow indent (gapAfter rest).rest
    dsimp only
    split
    · split
      · dsimp only
        omega
      · dsimp only
        omega
    · dsimp only
      omega

end PropertyGraph.Document
