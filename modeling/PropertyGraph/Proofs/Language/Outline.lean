import PropertyGraph.Proofs.Language.Layout

/-!
Outlines of query texts: the metadata lines, how the body is led in, and the items of the body,
each as it is written. An outline keeps the items apart, which the grammar runs together, so that
they can be put in another order.
-/

namespace PropertyGraph

namespace Grammar

/-- What an item is about: a section, the order, or the limit. -/
inductive Kind where
  | entries (part : Section)
  | sorting
  | limit
  deriving DecidableEq

/-- An item as it is written. -/
inductive BodyItem where
  | entries (part : Section) (chunks : List String)
  | sorting (chunk : String)
  | limit (chunk : String)

namespace BodyItem

def kind : BodyItem → Kind
  | entries part _ => .entries part
  | sorting _ => .sorting
  | limit _ => .limit

def lexemes : BodyItem → List Lexeme
  | entries part chunks => .text part.keyword :: .opening :: (chunks.map .text ++ [.closing])
  | sorting chunk => [.text chunk]
  | limit chunk => [.text chunk]

/-- What an item assigns, if its lines and entries can be read. -/
inductive Assigns : BodyItem → List Assignment → Prop where
  | entries {part : Section} {chunks : List String} {assigned : List Assignment} :
    List.Forall₂ (Entry part) chunks assigned → Assigns (.entries part chunks) assigned
  | sorting {chunk : String} {sorting : Sorting} :
    Directive chunk (.sorting sorting) → Assigns (.sorting chunk) [.sorting sorting]
  | limit {chunk : String} {n : Nat} :
    Directive chunk (.limit n) → Assigns (.limit chunk) [.limit n]

theorem Assigns.item {item : BodyItem} {assigned : List Assignment} (h : item.Assigns assigned) :
    Item item.lexemes assigned := by
  cases h with
  | entries hentries => exact .entries hentries
  | sorting hdirective => exact .directive hdirective
  | limit hdirective => exact .directive hdirective

theorem exists_of_item {lexemes : List Lexeme} {assigned : List Assignment}
    (h : Item lexemes assigned) :
    ∃ item : BodyItem, item.lexemes = lexemes ∧ item.Assigns assigned := by
  cases h with
  | @directive chunk a hdirective =>
      cases hdirective with
      | sorting hword hsorting =>
          exact ⟨.sorting chunk, rfl, .sorting (.sorting hword hsorting)⟩
      | limit hword hdigits hn => exact ⟨.limit chunk, rfl, .limit (.limit hword hdigits hn)⟩
  | @entries part chunks _ hentries => exact ⟨.entries part chunks, rfl, .entries hentries⟩

/-- Items one after another assign what each does. -/
theorem items_of_assigns {items : List BodyItem} {each : List (List Assignment)}
    (h : List.Forall₂ Assigns items each) : Items (items.flatMap lexemes) each.flatten := by
  induction h with
  | nil => exact .nil
  | cons hitem _ ih => exact .cons hitem.item ih

theorem exists_of_items {lexemes : List Lexeme} {assigned : List Assignment}
    (h : Items lexemes assigned) :
    ∃ (items : List BodyItem) (each : List (List Assignment)),
      items.flatMap BodyItem.lexemes = lexemes ∧ List.Forall₂ Assigns items each ∧
        each.flatten = assigned := by
  induction h with
  | nil => exact ⟨[], [], rfl, .nil, rfl⟩
  | cons hitem _ ih =>
      obtain ⟨item, rfl, hassigns⟩ := exists_of_item hitem
      obtain ⟨items, each, rfl, heach, rfl⟩ := ih
      exact ⟨item :: items, _ :: each, rfl, .cons hassigns heach, rfl⟩

end BodyItem

/-- How a body is led in: by nothing, by the line of an operation, or by this line and a brace. -/
inductive Lead where
  | none
  | line (chunk : String)
  | block (chunk : String)

namespace Lead

/-- The lexemes of a body and of what leads it in; a brace before it has another behind it. -/
def around : Lead → List Lexeme → List Lexeme
  | none, body => body
  | line chunk, body => .text chunk :: body
  | block chunk, body => .text chunk :: .opening :: (body ++ [.closing])

inductive Assigns : Lead → List Assignment → Prop where
  | none : Assigns .none []
  | line {chunk : String} {a : Assignment} : Operation chunk a → Assigns (.line chunk) [a]
  | block {chunk : String} {a : Assignment} : Operation chunk a → Assigns (.block chunk) [a]

theorem Assigns.body {lead : Lead} {body : List Lexeme} {led assigned : List Assignment}
    (h : lead.Assigns led) (hitems : Items body assigned) :
    Body (lead.around body) (led ++ assigned) := by
  cases h with
  | none => exact .items hitems
  | line hoperation => exact .operation hoperation hitems
  | block hoperation => exact .block hoperation hitems

theorem exists_of_body {lexemes : List Lexeme} {assigned : List Assignment}
    (h : Body lexemes assigned) :
    ∃ (lead : Lead) (body : List Lexeme) (led more : List Assignment),
      lead.around body = lexemes ∧ lead.Assigns led ∧ Items body more ∧ led ++ more = assigned := by
  cases h with
  | items hitems => exact ⟨.none, _, _, _, rfl, .none, hitems, rfl⟩
  | @operation chunk a _ _ hoperation hitems =>
      exact ⟨.line chunk, _, [a], _, rfl, .line hoperation, hitems, rfl⟩
  | @block chunk a _ _ hoperation hitems =>
      exact ⟨.block chunk, _, [a], _, rfl, .block hoperation, hitems, rfl⟩

end Lead

/-- A line of metadata is known by its first character. -/
def MetadataLine (chunk : String) (a : Assignment) : Prop :=
  chunk.toList.head? = some '@' ∧ Metadata chunk a

/-- A query text by its parts. -/
structure Outline where
  metadata : List String
  lead : Lead
  items : List BodyItem

namespace Outline

def lexemes (o : Outline) : List Lexeme :=
  o.metadata.map .text ++ o.lead.around (o.items.flatMap BodyItem.lexemes)

/-- What stands before the items, and each of the items, assign this. -/
structure Assigns (o : Outline) (named led : List Assignment) (each : List (List Assignment)) :
    Prop where
  metadata : List.Forall₂ MetadataLine o.metadata named
  lead : o.lead.Assigns led
  items : List.Forall₂ BodyItem.Assigns o.items each

/-- All lines and entries of the outline can be read. -/
def IsValid (o : Outline) : Prop := ∃ named led each, o.Assigns named led each

theorem sentence_of_metadata {metadata : List String} {named assigned : List Assignment}
    {rest : List Lexeme} (h : List.Forall₂ MetadataLine metadata named)
    (hrest : Sentence rest assigned) :
    Sentence (metadata.map .text ++ rest) (named ++ assigned) := by
  induction h with
  | nil => exact hrest
  | cons hline _ ih => exact .metadata hline.1 hline.2 ih

theorem Assigns.sentence {o : Outline} {named led : List Assignment}
    {each : List (List Assignment)} (h : o.Assigns named led each) :
    Sentence o.lexemes (named ++ (led ++ each.flatten)) :=
  sentence_of_metadata h.metadata (.body (h.lead.body (BodyItem.items_of_assigns h.items)))

/-- Every sentence has an outline. -/
theorem exists_of_sentence {lexemes : List Lexeme} {assigned : List Assignment}
    (h : Sentence lexemes assigned) :
    ∃ o : Outline, o.IsValid ∧ o.lexemes = lexemes := by
  induction h with
  | @metadata chunk a rest _ hat hmetadata _ ih =>
      obtain ⟨o, ⟨named, led, each, ho⟩, rfl⟩ := ih
      exact ⟨{ o with metadata := chunk :: o.metadata },
        ⟨a :: named, led, each, { ho with metadata := .cons ⟨hat, hmetadata⟩ ho.metadata }⟩, rfl⟩
  | body hbody =>
      obtain ⟨lead, body, led, more, rfl, hlead, hitems, rfl⟩ := Lead.exists_of_body hbody
      obtain ⟨items, each, rfl, heach, rfl⟩ := BodyItem.exists_of_items hitems
      exact ⟨⟨[], lead, items⟩, ⟨[], led, each, .nil, hlead, heach⟩, rfl⟩

end Outline

end Grammar

open Text

/-- A text that makes a query has an outline. -/
theorem Query.exists_outline {text : List Char} {q : Query}
    (h : ofText (String.ofList text) = .ok q) :
    ∃ o : Grammar.Outline, o.IsValid ∧ Token.lexemes? text = some o.lexemes := by
  obtain ⟨lexemes, assigned, hlexemes, hsentence, -⟩ := ofText_eq_ok_iff.1 h
  obtain ⟨o, hvalid, rfl⟩ := Grammar.Outline.exists_of_sentence hsentence
  exact ⟨o, hvalid, hlexemes⟩

/-- A text with this outline makes the query that the parts of the outline assign. -/
theorem Query.ofText_of_outline {o : Grammar.Outline} {named led : List Assignment}
    {each : List (List Assignment)} (ho : o.Assigns named led each) {text : List Char}
    (htext : Token.lexemes? text = some o.lexemes) :
    ofText (String.ofList text) =
      .ok (Assignment.applyAll {} (named ++ (led ++ each.flatten))) :=
  ofText_eq_ok_iff.2 ⟨_, _, htext, ho.sentence, rfl⟩

end PropertyGraph
