/-!
Searches for the place where a test stops holding. A test that holds up to some place and fails from
there on has one such place; of any other test the searches find some place or other, which depends on
where they look.
-/

namespace PropertyGraph

namespace RunSort

/-- The place between two positions that halving leads to. -/
def bisect (p : Nat → Bool) (lo hi : Nat) : Nat :=
  if lo < hi then
    let mid := (lo + hi) / 2
    if p mid then bisect p (mid + 1) hi else bisect p lo mid
  else lo
termination_by hi - lo

/-- The last offset at which the test held and the first at which it did not, of those that each
double the one before and add one, or the limit. -/
def leap (p : Nat → Bool) (limit last offset : Nat) : Nat × Nat :=
  if offset < limit then
    if p offset then leap p limit offset (2 * offset + 1) else (last, offset)
  else (last, limit)
termination_by limit - offset

/-- The place in a list of length `n` that leaping away from the position `hint` and then halving
leads to. -/
def gallop (p : Nat → Bool) (n hint : Nat) : Nat :=
  if p hint then
    let (last, offset) := leap (fun i => p (hint + i)) (n - hint) 0 1
    bisect p (hint + last + 1) (hint + offset)
  else
    let (last, offset) := leap (fun i => !p (hint - i)) (hint + 1) 0 1
    bisect p (hint + 1 - offset) (hint - last)

/-- How many elements of a list come before the place where the test stops holding. -/
def boundary (p : α → Bool) (elements : List α) (hint : Nat) : Nat :=
  gallop (fun i => elements[i]?.any p) elements.length hint

end RunSort

end PropertyGraph
