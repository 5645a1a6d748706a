/-!
Cutting a text into pieces. Nothing is lost: the pieces, joined again by the characters they were
cut at, are the text (`join_pieces` for a single separator).
-/

namespace PropertyGraph.Text

/-- The pieces of a text between the characters that satisfy `p`. A text without such a character
is one piece, the empty text too. -/
def pieces (p : Char → Bool) : List Char → List (List Char)
  | [] => [[]]
  | c :: rest =>
    match pieces p rest with
    | piece :: more => if p c then [] :: piece :: more else (c :: piece) :: more
    | [] => [[c]]

/-- The texts joined with `separator` between neighbours. -/
def join (separator : List Char) : List (List Char) → List Char
  | [] => []
  | [piece] => piece
  | piece :: more => piece ++ separator ++ join separator more

/-- What stands before the first `mark`, and what stands after it if there is one. -/
def cut (mark : Char) : List Char → List Char × Option (List Char)
  | [] => ([], none)
  | c :: rest =>
    if c = mark then ([], some rest)
    else ((c :: (cut mark rest).1), (cut mark rest).2)

/-- What stands before the first occurrence of `word`, and what stands after it. -/
def cutAt (word : List Char) : List Char → Option (List Char × List Char)
  | [] => if word.isEmpty then some ([], []) else none
  | c :: rest =>
    if word.isPrefixOf (c :: rest) then some ([], (c :: rest).drop word.length)
    else (cutAt word rest).map fun (before, after) => (c :: before, after)

/-- The text `word` occurs in the text. -/
def occursIn (word text : List Char) : Bool :=
  (cutAt word text).isSome

theorem pieces_ne_nil (p : Char → Bool) (text : List Char) : pieces p text ≠ [] := by
  cases text with
  | nil => simp [pieces]
  | cons c rest =>
    rw [pieces]
    split
    · split <;> simp
    · simp

theorem pieces_cons_of_true {p : Char → Bool} {c : Char} (h : p c = true) (rest : List Char) :
    pieces p (c :: rest) = [] :: pieces p rest := by
  rw [pieces]
  split
  · next heq => simp [h, heq]
  · next heq => exact absurd heq (pieces_ne_nil p rest)

theorem pieces_cons_of_false {p : Char → Bool} {c : Char} (h : p c = false) (rest : List Char) :
    pieces p (c :: rest) =
      (c :: (pieces p rest).headD []) :: (pieces p rest).tail := by
  rw [pieces]
  split
  · next heq => simp [h, heq]
  · next heq => exact absurd heq (pieces_ne_nil p rest)

/-- No piece is longer than the text. -/
theorem length_le_of_mem_pieces {p : Char → Bool} {text piece : List Char}
    (h : piece ∈ pieces p text) : piece.length ≤ text.length := by
  induction text generalizing piece with
  | nil => simp_all [pieces]
  | cons c rest ih =>
    cases hc : p c with
    | true =>
      rw [pieces_cons_of_true hc] at h
      rcases List.mem_cons.1 h with rfl | h
      · simp
      · exact Nat.le_succ_of_le (ih h)
    | false =>
      rw [pieces_cons_of_false hc] at h
      rcases List.mem_cons.1 h with rfl | h
      · have hhead : (pieces p rest).headD [] ∈ pieces p rest := by
          cases hp : pieces p rest with
          | nil => exact absurd hp (pieces_ne_nil p rest)
          | cons a l => simp
        simpa using ih hhead
      · exact Nat.le_succ_of_le (ih (List.mem_of_mem_tail h))

/-- The pieces, joined again by the mark they were cut at, are the text. -/
theorem join_pieces (mark : Char) (text : List Char) :
    join [mark] (pieces (· == mark) text) = text := by
  induction text with
  | nil => rfl
  | cons c rest ih =>
    cases hp : pieces (· == mark) rest with
    | nil => exact absurd hp (pieces_ne_nil _ rest)
    | cons piece more =>
      rw [hp] at ih
      by_cases hc : c = mark
      · subst hc
        rw [pieces_cons_of_true (by simp), hp]
        simp [join, ih]
      · rw [pieces_cons_of_false (by simpa using hc), hp]
        cases more with
        | nil => simpa [join] using ih
        | cons next others => simpa [join] using ih

end PropertyGraph.Text
