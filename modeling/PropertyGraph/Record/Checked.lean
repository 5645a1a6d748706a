import PropertyGraph.Value.Text

/-!
Checks that report every wrong place, not only the first. A check of a part is carried out on its
own, and `Checked.within` says where in the whole the part stands.
-/

namespace PropertyGraph

/-- One step from a record to a part of it. -/
inductive Step where
  | field (name : String)
  | index (position : Nat)
  | key (key : Value)

/-- The text of a step. A key that is a truth value is written as a number. -/
def Step.text : Step → String
  | field name => name
  | index position => String.ofList (Text.natDigits position)
  | key (.str name) => name
  | key (.bool b) => if b then "1" else "0"
  | key other => String.ofList other.shown

/-- A part of a record, by the steps that lead to it. -/
structure Place where
  steps : List Step

/-- The steps with points between them. -/
def Place.path (place : Place) : String := ".".intercalate (place.steps.map Step.text)

/-- A value that passed its checks, or the places that are wrong. -/
inductive Checked (α : Type u) where
  | accepted (value : α)
  | refused (places : List Place)

namespace Checked

def map (f : α → β) : Checked α → Checked β
  | accepted value => accepted (f value)
  | refused places => refused places

/-- Both checks are carried out, and what is wrong with either is reported. -/
def apply : Checked (α → β) → Checked α → Checked β
  | accepted f, accepted value => accepted (f value)
  | accepted _, refused places => refused places
  | refused places, accepted _ => refused places
  | refused places, refused more => refused (places ++ more)

instance : Applicative Checked where
  pure := accepted
  map := map
  seq f value := f.apply (value ())

@[simp] theorem pure_eq (value : α) : (pure value : Checked α) = accepted value := rfl

@[simp] theorem map_accepted (f : α → β) (value : α) :
    f <$> accepted value = accepted (f value) := rfl

@[simp] theorem accepted_seq_accepted (f : α → β) (value : α) :
    accepted f <*> accepted value = accepted (f value) := rfl

/-- The value, if there is one; otherwise the whole part is wrong. -/
def ofOption : Option α → Checked α
  | some value => accepted value
  | none => refused [⟨[]⟩]

/-- The check of the part that `step` leads to. -/
def within (step : Step) : Checked α → Checked α
  | accepted value => accepted value
  | refused places => refused (places.map fun place => ⟨step :: place.steps⟩)

@[simp] theorem ofOption_some (value : α) : ofOption (some value) = accepted value := rfl

@[simp] theorem within_accepted (step : Step) (value : α) :
    within step (accepted value) = accepted value := rfl

/-- Check all elements of a list that starts at a position. -/
def allFrom (check : α → Checked β) (position : Nat) : List α → Checked (List β)
  | [] => accepted []
  | element :: rest =>
    List.cons <$> within (.index position) (check element) <*>
      allFrom check (position + 1) rest

/-- Check all elements of a list. -/
def all (check : α → Checked β) (elements : List α) : Checked (List β) :=
  allFrom check 0 elements

end Checked

end PropertyGraph
