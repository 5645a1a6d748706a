import PropertyGraph.Document.Layout
import PropertyGraph.Document.Scalar
import PropertyGraph.Document.Tree
import PropertyGraph.Text.Newline
import PropertyGraph.Value.Order

/-!
Documents: texts that write a value, in block layout or in brackets. A document that holds no tree
is malformed; in one that does, a scalar may still name no value. Of several such scalars the one
that is nested least deeply is reported, and of those the first.
-/

namespace PropertyGraph

/-- Why a text is no document. -/
inductive DocumentError where
  | malformed
  | scalar (fault : Document.ScalarFault)
  deriving DecidableEq

namespace Document

/-- An error and the depth at which it was found. -/
structure Flaw where
  depth : Nat
  error : DocumentError

/-- Two results, or the flaw of lesser depth. -/
def both (a : Except Flaw α) (b : Except Flaw β) : Except Flaw (α × β) :=
  match a, b with
  | .ok a, .ok b => .ok (a, b)
  | .ok _, .error flaw => .error flaw
  | .error flaw, .ok _ => .error flaw
  | .error flaw, .error other => .error (if other.depth < flaw.depth then other else flaw)

namespace Tree

def isScalar : Tree → Bool
  | .scalar .. => true
  | _ => false

mutual

def valueAt (depth : Nat) : Tree → Except Flaw Value
  | .scalar text true => .ok (.str (String.ofList text))
  | .scalar text false => (Scalar.value text).mapError fun fault => ⟨depth, .scalar fault⟩
  | .sequence items => (itemsAt (depth + 1) items).map .list
  | .mapping entries => (entriesAt (depth + 1) entries).map .ofEntries

def itemsAt (depth : Nat) : List Tree → Except Flaw (List Value)
  | [] => .ok []
  | item :: rest =>
    (both (valueAt depth item) (itemsAt depth rest)).map fun found => found.1 :: found.2

/-- The entries of a mapping. A collection is no key. -/
def entriesAt (depth : Nat) : List (Tree × Tree) → Except Flaw (List (Value × Value))
  | [] => .ok []
  | (key, value) :: rest =>
    let keyValue := if key.isScalar then valueAt depth key else .error ⟨depth, .malformed⟩
    (both (both keyValue (valueAt depth value)) (entriesAt depth rest)).map fun found =>
      found.1 :: found.2

end

/-- The value that a tree writes. -/
def value (tree : Tree) : Except DocumentError Value :=
  (tree.valueAt 0).mapError Flaw.error

end Tree

/-- The value that a text writes. -/
def value (text : String) : Except DocumentError Value :=
  let chars := Text.unifyNewlines text.toList
  if chars.all isAllowed then
    match (tokens chars).bind Tree.ofTokens? with
    | some tree => tree.value
    | none => .error .malformed
  else .error .malformed

end Document

end PropertyGraph
