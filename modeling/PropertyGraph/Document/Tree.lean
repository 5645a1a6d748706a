import PropertyGraph.Document.Token

/-!
The tree of a document, before its scalars are given meaning. Every reading of a part of the tokens
returns the tokens after it and a proof that there are fewer of them, so that readings end.
-/

namespace PropertyGraph.Document

inductive Tree where
  | scalar (text : List Char) (isQuoted : Bool)
  | sequence (items : List Tree)
  | mapping (entries : List (Tree × Tree))
  deriving Inhabited

/-- What stands where a node is left out. -/
def Tree.missing : Tree := .scalar [] false

/-- Something read, and the tokens after it, fewer than a bound. -/
structure Reading (α : Type) (bound : Nat) where
  result : α
  rest : List Token
  fewer : rest.length < bound

namespace Token

/-- A node begins with this token. -/
def startsNode : Token → Bool
  | scalar .. | blockSequenceStart | blockMappingStart | flowSequenceStart | flowMappingStart =>
    true
  | _ => false

end Token

mutual

/-- A scalar or a collection. -/
def node (tokens : List Token) : Option (Reading Tree tokens.length) :=
  match tokens with
  | .scalar text isQuoted :: rest => some ⟨.scalar text isQuoted, rest, by simp⟩
  | .blockSequenceStart :: rest => do
    let items ← blockItems rest
    have := items.fewer
    return ⟨.sequence items.result, items.rest, by simp only [List.length_cons]; omega⟩
  | .blockMappingStart :: rest => do
    let entries ← blockEntries rest
    have := entries.fewer
    return ⟨.mapping entries.result, entries.rest, by simp only [List.length_cons]; omega⟩
  | .flowSequenceStart :: rest => do
    let items ← flowItems rest
    have := items.fewer
    return ⟨.sequence items.result, items.rest, by simp only [List.length_cons]; omega⟩
  | .flowMappingStart :: rest => do
    let entries ← flowEntries rest
    have := entries.fewer
    return ⟨.mapping entries.result, entries.rest, by simp only [List.length_cons]; omega⟩
  | _ => none
termination_by 3 * tokens.length
decreasing_by all_goals (try simp only [List.length_cons]); omega

/-- A node that may be left out. Entries without a collection of their own form a sequence, where
that is allowed. -/
def optionalNode (bare : Bool) (tokens : List Token) :
    Option (Reading Tree (tokens.length + 1)) :=
  match tokens with
  | [] => some ⟨.missing, [], by simp⟩
  | token :: rest =>
    if token.startsNode then do
      let found ← node (token :: rest)
      have := found.fewer
      return ⟨found.result, found.rest, by omega⟩
    else if bare && token == .blockEntry then do
      let items ← bareItems (token :: rest)
      have := items.fewer
      return ⟨.sequence items.result, items.rest, by omega⟩
    else some ⟨.missing, token :: rest, by simp⟩
termination_by 3 * tokens.length + 1

/-- The entries of a block sequence, up to its end. -/
def blockItems (tokens : List Token) : Option (Reading (List Tree) tokens.length) :=
  match tokens with
  | .blockEnd :: rest => some ⟨[], rest, by simp⟩
  | .blockEntry :: rest => do
    let first ← optionalNode false rest
    have := first.fewer
    let more ← blockItems first.rest
    have := more.fewer
    return ⟨first.result :: more.result, more.rest, by simp only [List.length_cons]; omega⟩
  | _ => none
termination_by 3 * tokens.length
decreasing_by all_goals (try simp only [List.length_cons]); omega

/-- Entries at the column of the mapping that holds them. -/
def bareItems (tokens : List Token) : Option (Reading (List Tree) (tokens.length + 1)) :=
  match tokens with
  | .blockEntry :: rest => do
    let first ← optionalNode false rest
    have := first.fewer
    let more ← bareItems first.rest
    have := more.fewer
    return ⟨first.result :: more.result, more.rest, by simp only [List.length_cons]; omega⟩
  | tokens => some ⟨[], tokens, by simp⟩
termination_by 3 * tokens.length
decreasing_by all_goals (try simp only [List.length_cons]); omega

/-- The value of an entry; missing if there is no colon. -/
def entryValue (tokens : List Token) : Option (Reading Tree (tokens.length + 1)) :=
  match tokens with
  | .value :: rest => do
    let found ← optionalNode true rest
    have := found.fewer
    return ⟨found.result, found.rest, by simp only [List.length_cons]; omega⟩
  | tokens => some ⟨.missing, tokens, by simp⟩
termination_by 3 * tokens.length
decreasing_by all_goals (try simp only [List.length_cons]); omega

/-- A key and its value, after the token that announces them. -/
def entry (tokens : List Token) : Option (Reading (Tree × Tree) (tokens.length + 1)) := do
  let key ← optionalNode true tokens
  have := key.fewer
  let value ← entryValue key.rest
  have := value.fewer
  return ⟨(key.result, value.result), value.rest, by omega⟩
termination_by 3 * tokens.length + 2

/-- The entries of a block mapping, up to its end. -/
def blockEntries (tokens : List Token) : Option (Reading (List (Tree × Tree)) tokens.length) :=
  match tokens with
  | .blockEnd :: rest => some ⟨[], rest, by simp⟩
  | .key :: rest => do
    let first ← entry rest
    have := first.fewer
    let more ← blockEntries first.rest
    have := more.fewer
    return ⟨first.result :: more.result, more.rest, by simp only [List.length_cons]; omega⟩
  | _ => none
termination_by 3 * tokens.length
decreasing_by all_goals (try simp only [List.length_cons]); omega

/-- The items of a sequence in brackets, up to its end. A key and a value without brackets are a
mapping of one entry. -/
def flowItems (tokens : List Token) : Option (Reading (List Tree) tokens.length) :=
  match tokens with
  | .flowSequenceEnd :: rest => some ⟨[], rest, by simp⟩
  | .key :: rest => do
    let first ← entry rest
    have := first.fewer
    let more ← moreFlowItems first.rest
    have := more.fewer
    return ⟨.mapping [first.result] :: more.result, more.rest, by
      simp only [List.length_cons]; omega⟩
  | tokens => do
    let first ← node tokens
    have := first.fewer
    let more ← moreFlowItems first.rest
    have := more.fewer
    return ⟨first.result :: more.result, more.rest, by omega⟩
termination_by 3 * tokens.length + 1
decreasing_by all_goals (try simp only [List.length_cons]); omega

/-- The items after one of them. -/
def moreFlowItems (tokens : List Token) : Option (Reading (List Tree) tokens.length) :=
  match tokens with
  | .flowSequenceEnd :: rest => some ⟨[], rest, by simp⟩
  | .flowEntry :: rest => do
    let more ← flowItems rest
    have := more.fewer
    return ⟨more.result, more.rest, by simp only [List.length_cons]; omega⟩
  | _ => none
termination_by 3 * tokens.length
decreasing_by all_goals (try simp only [List.length_cons]); omega

/-- The entries of a mapping in brackets, up to its end. -/
def flowEntries (tokens : List Token) : Option (Reading (List (Tree × Tree)) tokens.length) :=
  match tokens with
  | .flowMappingEnd :: rest => some ⟨[], rest, by simp⟩
  | .key :: rest => do
    let first ← entry rest
    have := first.fewer
    let more ← moreFlowEntries first.rest
    have := more.fewer
    return ⟨first.result :: more.result, more.rest, by simp only [List.length_cons]; omega⟩
  | tokens => do
    let first ← node tokens
    have := first.fewer
    let more ← moreFlowEntries first.rest
    have := more.fewer
    return ⟨(first.result, .missing) :: more.result, more.rest, by omega⟩
termination_by 3 * tokens.length + 1
decreasing_by all_goals (try simp only [List.length_cons]); omega

/-- The entries after one of them. -/
def moreFlowEntries (tokens : List Token) :
    Option (Reading (List (Tree × Tree)) tokens.length) :=
  match tokens with
  | .flowMappingEnd :: rest => some ⟨[], rest, by simp⟩
  | .flowEntry :: rest => do
    let more ← flowEntries rest
    have := more.fewer
    return ⟨more.result, more.rest, by simp only [List.length_cons]; omega⟩
  | _ => none
termination_by 3 * tokens.length
decreasing_by all_goals (try simp only [List.length_cons]); omega

end

/-- The tree of a document that is not empty, and the tokens after it. -/
def Tree.first? : List Token → Option (Tree × List Token)
  | [] => some (.missing, [])
  | .documentStart :: rest =>
    match rest with
    | [] => some (.missing, [])
    | .documentStart :: _ | .documentEnd :: _ => some (.missing, rest)
    | _ => (node rest).map fun found => (found.result, found.rest)
  | tokens => (node tokens).map fun found => (found.result, found.rest)

/-- The tree of tokens that hold one document. -/
def Tree.ofTokens? (tokens : List Token) : Option Tree := do
  let (tree, rest) ← first? tokens
  if rest.all (· == .documentEnd) then some tree else none

end PropertyGraph.Document
