import Mathlib.Data.List.Induction
import PropertyGraph.Language.Draft
import PropertyGraph.Proofs.OrderedMap

/-!
The grammar of query texts: metadata lines, then items, or an operation line with items after it or
in a block. Each item assigns something to the query, and the query is what all of them assign, one
after another.

The grammar is about lexemes only. What single lines and entries mean is left to their readers.
-/

namespace PropertyGraph

open Text

/-- What a line or an entry of a query text assigns to the query. -/
inductive Assignment where
  | name (name : String)
  | intent (intent : String)
  | operation (operation : Operation) (target : String)
  | condition (key : String) (value : Value)
  | aggregation (key : String) (aggregation : Aggregation)
  | filter (key : String) (comparison : Comparison)
  | sorting (sorting : Sorting)
  | limit (n : Nat)

namespace Assignment

/-- The query after an assignment. -/
def apply (q : Query) : Assignment → Query
  | .name text => { q with name := text }
  | .intent text => { q with intent := text }
  | .operation op target => { q with operation := op, target := target }
  | .condition key value => { q with conditions := q.conditions.insert key value }
  | .aggregation key a => { q with aggregations := q.aggregations.insert key a }
  | .filter key c => { q with filters := q.filters.insert key c }
  | .sorting s => { q with sorting := some s }
  | .limit n => { q with limit := some n }

/-- The query after assignments, from the first to the last. -/
def applyAll (q : Query) (assignments : List Assignment) : Query := assignments.foldl apply q

@[simp] theorem applyAll_nil (q : Query) : applyAll q [] = q := rfl

@[simp] theorem applyAll_cons (q : Query) (a : Assignment) (rest : List Assignment) :
    applyAll q (a :: rest) = applyAll (a.apply q) rest := rfl

@[simp] theorem applyAll_append (q : Query) (first second : List Assignment) :
    applyAll q (first ++ second) = applyAll (applyAll q first) second :=
  List.foldl_append

def name? : Assignment → Option String
  | .name text => some text
  | _ => none

def intent? : Assignment → Option String
  | .intent text => some text
  | _ => none

def operation? : Assignment → Option (Operation × String)
  | .operation op target => some (op, target)
  | _ => none

/-- What is assigned to a key of the conditions. -/
def condition? (key : String) : Assignment → Option Value
  | .condition other value => if other = key then some value else none
  | _ => none

def aggregation? (key : String) : Assignment → Option Aggregation
  | .aggregation other a => if other = key then some a else none
  | _ => none

def filter? (key : String) : Assignment → Option Comparison
  | .filter other c => if other = key then some c else none
  | _ => none

def sorting? : Assignment → Option Sorting
  | .sorting s => some s
  | _ => none

def limit? : Assignment → Option Int
  | .limit n => some n
  | _ => none

/-- What the last of the assignments says that says something. -/
def last (pick : Assignment → Option α) (assignments : List Assignment) : Option α :=
  assignments.reverse.findSome? pick

theorem last_concat (pick : Assignment → Option α) (assignments : List Assignment)
    (a : Assignment) : last pick (assignments ++ [a]) = (pick a).or (last pick assignments) := by
  rw [last, List.reverse_append, List.findSome?_append]
  cases h : pick a <;> simp [last, h]

end Assignment

/-- The query holds what was assigned last: of names, operation, order and limit, and of each key
of the clauses. What nothing was assigned to is as in the empty query. -/
structure Query.HoldsLast (assignments : List Assignment) (q : Query) : Prop where
  name : q.name = (Assignment.last Assignment.name? assignments).getD ""
  intent : q.intent = (Assignment.last Assignment.intent? assignments).getD ""
  operation : (q.operation, q.target) =
    (Assignment.last Assignment.operation? assignments).getD (.fetch, "")
  conditions (key : String) :
    q.conditions.get? key = Assignment.last (Assignment.condition? key) assignments
  aggregations (key : String) :
    q.aggregations.get? key = Assignment.last (Assignment.aggregation? key) assignments
  filters (key : String) :
    q.filters.get? key = Assignment.last (Assignment.filter? key) assignments
  sorting : q.sorting = Assignment.last Assignment.sorting? assignments
  limit : q.limit = Assignment.last Assignment.limit? assignments

theorem Query.HoldsLast.apply {assignments : List Assignment} {q : Query}
    (h : HoldsLast assignments q) (a : Assignment) :
    HoldsLast (assignments ++ [a]) (a.apply q) := by
  constructor
  case name =>
    rw [Assignment.last_concat]
    cases a <;> simp [Assignment.apply, Assignment.name?, h.name]
  case intent =>
    rw [Assignment.last_concat]
    cases a <;> simp [Assignment.apply, Assignment.intent?, h.intent]
  case operation =>
    rw [Assignment.last_concat]
    cases a <;> simp [Assignment.apply, Assignment.operation?, h.operation]
  case conditions =>
    intro key
    rw [Assignment.last_concat]
    cases a with
    | condition other value =>
        by_cases hkey : other = key <;>
          simp [Assignment.apply, Assignment.condition?, hkey, h.conditions]
    | _ => simp [Assignment.apply, Assignment.condition?, h.conditions]
  case aggregations =>
    intro key
    rw [Assignment.last_concat]
    cases a with
    | aggregation other a =>
        by_cases hkey : other = key <;>
          simp [Assignment.apply, Assignment.aggregation?, hkey, h.aggregations]
    | _ => simp [Assignment.apply, Assignment.aggregation?, h.aggregations]
  case filters =>
    intro key
    rw [Assignment.last_concat]
    cases a with
    | filter other c =>
        by_cases hkey : other = key <;>
          simp [Assignment.apply, Assignment.filter?, hkey, h.filters]
    | _ => simp [Assignment.apply, Assignment.filter?, h.filters]
  case sorting =>
    rw [Assignment.last_concat]
    cases a <;> simp [Assignment.apply, Assignment.sorting?, h.sorting]
  case limit =>
    rw [Assignment.last_concat]
    cases a <;> simp [Assignment.apply, Assignment.limit?, h.limit]

/-- The query of assignments holds the last of each kind and of each key. -/
theorem Query.holdsLast_applyAll (assignments : List Assignment) :
    HoldsLast assignments (Assignment.applyAll {} assignments) := by
  induction assignments using List.reverseRecOn with
  | nil => constructor <;> intros <;> rfl
  | append_singleton assignments a ih =>
      rw [Assignment.applyAll_append]
      exact ih.apply a

namespace Grammar

/-- A metadata line names the query or states its intent. -/
inductive Metadata : String → Assignment → Prop where
  | name {chunk : String} {rest? : Option (List Char)} {name : List Char}
      {more : List (List Char)} :
      cut ' ' chunk.toList = ("@QUERY".toList, rest?) →
      words (strip (rest?.getD [])) = name :: more →
      Metadata chunk (.name (String.ofList name))
  | intent {chunk : String} {rest? : Option (List Char)} :
      cut ' ' chunk.toList = ("@INTENT".toList, rest?) →
      Metadata chunk (.intent (String.ofList
        ((Draft.firstQuoted? (strip (rest?.getD []))).getD (strip (rest?.getD [])))))

/-- A directive sorts or limits the answer. -/
inductive Directive : String → Assignment → Prop where
  | sorting {chunk : String} {sorting : Sorting} :
      "SORT".toList <+: chunk.toList → Draft.sortDirective? chunk = some sorting →
      Directive chunk (.sorting sorting)
  | limit {chunk : String} {digits : List Char} {n : Nat} :
      "LIMIT".toList <+: chunk.toList → Draft.limitDigits? chunk = some digits →
      Numeral.natural digits = .ok n → Directive chunk (.limit n)

/-- An entry of a section binds a key. -/
inductive Entry : Section → String → Assignment → Prop where
  | condition {chunk key : String} {text : List Char} {value : Value} :
      PropertyGraph.Entry.split? chunk.toList = some (key, text) →
      Literal.read text = .ok value → Entry .conditions chunk (.condition key value)
  | aggregation {chunk key : String} {text : List Char} {aggregation : Aggregation} :
      PropertyGraph.Entry.split? chunk.toList = some (key, text) →
      Aggregation.read (Literal.dropTrailingComma text) = .ok aggregation →
      Entry .aggregations chunk (.aggregation key aggregation)
  | filter {chunk key : String} {text : List Char} {comparison : Comparison} :
      PropertyGraph.Entry.splitFilter? chunk.toList = some (key, text) →
      Comparison.read text = .ok comparison → Entry .filters chunk (.filter key comparison)

/-- An operation line says what is done, and on what. It begins neither as a metadata line does nor
with a word that an item begins with. -/
inductive Operation : String → Assignment → Prop where
  | operation {chunk name target : String} :
      chunk.toList.head? ≠ some '@' →
      Draft.firstWord chunk ∉ ["WHERE", "COMPUTE", "FILTER", "SORT", "LIMIT"] →
      Draft.operationLine? chunk = some (name, target) →
      Operation chunk (.operation (.named name) target)

/-- An item: a directive, or a section with its entries in braces. -/
inductive Item : List Lexeme → List Assignment → Prop where
  | directive {chunk : String} {a : Assignment} : Directive chunk a → Item [.text chunk] [a]
  | entries {part : Section} {chunks : List String} {assignments : List Assignment} :
      List.Forall₂ (Entry part) chunks assignments →
      Item (.text part.keyword :: .opening :: (chunks.map .text ++ [.closing])) assignments

/-- Any number of items, one after another. -/
inductive Items : List Lexeme → List Assignment → Prop where
  | nil : Items [] []
  | cons {lexemes rest : List Lexeme} {assignments more : List Assignment} :
      Item lexemes assignments → Items rest more → Items (lexemes ++ rest) (assignments ++ more)

/-- What follows the metadata: items, which can be missing; or an operation with items after it, or
with items in a block. -/
inductive Body : List Lexeme → List Assignment → Prop where
  | items {lexemes : List Lexeme} {assignments : List Assignment} :
      Items lexemes assignments → Body lexemes assignments
  | operation {chunk : String} {a : Assignment} {lexemes : List Lexeme}
      {assignments : List Assignment} :
      Operation chunk a → Items lexemes assignments →
      Body (.text chunk :: lexemes) (a :: assignments)
  | block {chunk : String} {a : Assignment} {lexemes : List Lexeme}
      {assignments : List Assignment} :
      Operation chunk a → Items lexemes assignments →
      Body (.text chunk :: .opening :: (lexemes ++ [.closing])) (a :: assignments)

/-- A query text: metadata lines, then the rest. -/
inductive Sentence : List Lexeme → List Assignment → Prop where
  | metadata {chunk : String} {a : Assignment} {rest : List Lexeme}
      {assignments : List Assignment} :
      chunk.toList.head? = some '@' → Metadata chunk a → Sentence rest assignments →
      Sentence (.text chunk :: rest) (a :: assignments)
  | body {lexemes : List Lexeme} {assignments : List Assignment} :
      Body lexemes assignments → Sentence lexemes assignments

theorem Operation.fetch {chunk target : String} (hat : chunk.toList.head? ≠ some '@')
    (hword : Draft.firstWord chunk ∉ ["WHERE", "COMPUTE", "FILTER", "SORT", "LIMIT"])
    (hline : Draft.operationLine? chunk = some ("FETCH", target)) :
    Operation chunk (.operation .fetch target) := by
  have hname : PropertyGraph.Operation.named "FETCH" = .fetch := by decide +kernel
  rw [← hname]
  exact .operation hat hword hline

section

variable {motive : Assignment → Prop} {lexemes : List Lexeme} {assignments : List Assignment}

/-- What holds of all directives and of all entries holds of all that items assign. -/
theorem Items.forall_mem (hdirective : ∀ chunk a, Directive chunk a → motive a)
    (hentry : ∀ part chunk a, Entry part chunk a → motive a) (h : Items lexemes assignments) :
    ∀ a ∈ assignments, motive a := by
  induction h with
  | nil => exact fun _ ha => nomatch ha
  | cons hitem _ ih =>
      refine List.forall_mem_append.2 ⟨?_, ih⟩
      cases hitem with
      | directive h => exact List.forall_mem_singleton.2 (hdirective _ _ h)
      | entries hentries =>
          induction hentries with
          | nil => exact fun _ ha => nomatch ha
          | cons h _ ih => exact List.forall_mem_cons.2 ⟨hentry _ _ _ h, ih⟩

theorem Body.forall_mem (hdirective : ∀ chunk a, Directive chunk a → motive a)
    (hentry : ∀ part chunk a, Entry part chunk a → motive a)
    (hoperation : ∀ chunk a, Operation chunk a → motive a) (h : Body lexemes assignments) :
    ∀ a ∈ assignments, motive a := by
  cases h with
  | items hitems => exact hitems.forall_mem hdirective hentry
  | operation h hitems =>
      exact List.forall_mem_cons.2 ⟨hoperation _ _ h, hitems.forall_mem hdirective hentry⟩
  | block h hitems =>
      exact List.forall_mem_cons.2 ⟨hoperation _ _ h, hitems.forall_mem hdirective hentry⟩

end

end Grammar

end PropertyGraph
