import PropertyGraph.Proofs.Language.Grammar
import PropertyGraph.Proofs.Query.Canonical

/-!
Where assignments go. An assignment fills one slot of the query, and of those that fill a slot the
last one counts. So the query depends on the order of assignments only slot by slot: lists of
assignments that share no slot can be put in another order, or be taken out of one another.
-/

namespace PropertyGraph

/-- What an assignment can fill. -/
inductive Slot where
  | name
  | intent
  | operation
  | condition (key : String)
  | aggregation (key : String)
  | filter (key : String)
  | sorting
  | limit
  deriving DecidableEq

namespace Assignment

def slot : Assignment → Slot
  | .name _ => .name
  | .intent _ => .intent
  | .operation _ _ => .operation
  | .condition key _ => .condition key
  | .aggregation key _ => .aggregation key
  | .filter key _ => .filter key
  | .sorting _ => .sorting
  | .limit _ => .limit

/-- What fills a slot, from the first to the last. -/
def into (slot : Slot) (assignments : List Assignment) : List Assignment :=
  assignments.filter (·.slot = slot)

@[simp] theorem into_nil (slot : Slot) : into slot [] = [] := rfl

@[simp] theorem into_append (slot : Slot) (first second : List Assignment) :
    into slot (first ++ second) = into slot first ++ into slot second :=
  List.filter_append first second

theorem into_eq_nil_iff {slot : Slot} {assignments : List Assignment} :
    into slot assignments = [] ↔ ∀ a ∈ assignments, a.slot ≠ slot := by
  simp [into, List.filter_eq_nil_iff]

/-- What is picked from assignments to one slot is picked among these. -/
theorem last_into {pick : Assignment → Option α} {slot : Slot}
    (hpick : ∀ a value, pick a = some value → a.slot = slot) (assignments : List Assignment) :
    last pick (into slot assignments) = last pick assignments := by
  induction assignments using List.reverseRecOn with
  | nil => rfl
  | append_singleton assignments a ih =>
      rw [last_concat, into_append]
      by_cases hslot : a.slot = slot
      · have ha : into slot [a] = [a] := List.filter_cons_of_pos (decide_eq_true hslot)
        rw [ha, last_concat, ih]
      · have ha : into slot [a] = [] := List.filter_cons_of_neg (by simpa using hslot)
        have hnone : pick a = none :=
          Option.eq_none_iff_forall_ne_some.2 fun value hvalue => hslot (hpick a value hvalue)
        rw [ha, List.append_nil, ih, hnone, Option.none_or]

/-- The assignments agree on each slot, and so in all that counts. -/
def SameSlots (first second : List Assignment) : Prop :=
  ∀ slot, into slot first = into slot second

namespace SameSlots

variable {first second third : List Assignment}

theorem refl (assignments : List Assignment) : SameSlots assignments assignments := fun _ => rfl

theorem trans (h : SameSlots first second) (h' : SameSlots second third) :
    SameSlots first third :=
  fun slot => (h slot).trans (h' slot)

theorem append {more others : List Assignment} (h : SameSlots first second)
    (h' : SameSlots more others) : SameSlots (first ++ more) (second ++ others) := fun slot => by
  rw [into_append, into_append, h slot, h' slot]

theorem last_eq (h : SameSlots first second) {pick : Assignment → Option α} (slot : Slot)
    (hpick : ∀ a value, pick a = some value → a.slot = slot) :
    last pick first = last pick second := by
  rw [← last_into hpick, h slot, last_into hpick]

/-- Queries of assignments that agree on each slot differ in the order of clauses only. -/
theorem sameBindings (h : SameSlots first second) :
    Query.SameBindings (applyAll {} first) (applyAll {} second) := by
  have hfirst := Query.holdsLast_applyAll first
  have hsecond := Query.holdsLast_applyAll second
  have hoperation : last operation? first = last operation? second :=
    h.last_eq .operation fun a _ ha => by cases a <;> first | rfl | cases ha
  have hboth := hfirst.operation.trans (hoperation ▸ hsecond.operation.symm)
  constructor
  case name =>
    rw [hfirst.name, hsecond.name,
      h.last_eq .name fun a _ ha => by cases a <;> first | rfl | cases ha]
  case intent =>
    rw [hfirst.intent, hsecond.intent,
      h.last_eq .intent fun a _ ha => by cases a <;> first | rfl | cases ha]
  case operation => exact (Prod.mk.inj hboth).1
  case target => exact (Prod.mk.inj hboth).2
  case conditions =>
    intro key
    rw [hfirst.conditions, hsecond.conditions]
    refine h.last_eq (.condition key) fun a _ ha => ?_
    cases a with
    | condition other _ => rw [slot, (Option.ite_none_right_eq_some.1 ha).1]
    | _ => cases ha
  case aggregations =>
    intro key
    rw [hfirst.aggregations, hsecond.aggregations]
    refine h.last_eq (.aggregation key) fun a _ ha => ?_
    cases a with
    | aggregation other _ => rw [slot, (Option.ite_none_right_eq_some.1 ha).1]
    | _ => cases ha
  case filters =>
    intro key
    rw [hfirst.filters, hsecond.filters]
    refine h.last_eq (.filter key) fun a _ ha => ?_
    cases a with
    | filter other _ => rw [slot, (Option.ite_none_right_eq_some.1 ha).1]
    | _ => cases ha
  case sorting =>
    rw [hfirst.sorting, hsecond.sorting]
    exact h.last_eq .sorting fun a _ ha => by cases a <;> first | rfl | cases ha
  case limit =>
    rw [hfirst.limit, hsecond.limit]
    exact h.last_eq .limit fun a _ ha => by cases a <;> first | rfl | cases ha

end SameSlots

/-- No slot is filled by both. -/
def Apart (first second : List Assignment) : Prop :=
  ∀ a ∈ first, ∀ b ∈ second, a.slot ≠ b.slot

theorem Apart.symm {first second : List Assignment} (h : Apart first second) :
    Apart second first :=
  fun a ha b hb hslot => h b hb a ha hslot.symm

theorem Apart.into_eq_nil {first second : List Assignment} (h : Apart first second)
    (slot : Slot) : into slot first = [] ∨ into slot second = [] := by
  by_cases hfirst : ∃ a ∈ first, a.slot = slot
  · obtain ⟨a, ha, rfl⟩ := hfirst
    exact .inr (into_eq_nil_iff.2 fun b hb hslot => h a ha b hb hslot.symm)
  · exact .inl (into_eq_nil_iff.2 fun a ha hslot => hfirst ⟨a, ha, hslot⟩)

/-- Assignments that share no slot can be made in either order. -/
theorem Apart.sameSlots {first second : List Assignment} (h : Apart first second) :
    SameSlots (first ++ second) (second ++ first) := fun slot => by
  rw [into_append, into_append]
  rcases h.into_eq_nil slot with hnil | hnil <;> rw [hnil] <;> simp

/-- Lists of assignments of which no two share a slot can be made in any order. -/
theorem sameSlots_of_perm {each others : List (List Assignment)} (hperm : each.Perm others)
    (h : each.Pairwise Apart) : SameSlots each.flatten others.flatten := by
  induction hperm with
  | nil => exact .refl _
  | cons first _ ih => exact (SameSlots.refl first).append (ih (List.pairwise_cons.1 h).2)
  | swap first second rest =>
      have happart := (List.pairwise_cons.1 h).1 first List.mem_cons_self
      rw [List.flatten_cons, List.flatten_cons, List.flatten_cons, List.flatten_cons,
        ← List.append_assoc, ← List.append_assoc]
      exact happart.sameSlots.append (.refl _)
  | trans hfirst _ ih ih' =>
      exact (ih h).trans (ih' ((hfirst.pairwise_iff fun {_ _} => Apart.symm).1 h))

end Assignment

/-- Two lists one within the other, the order of each of them kept. -/
inductive Interleaved {α : Type u} : List α → List α → List α → Prop where
  | nil : Interleaved [] [] []
  | left {x : α} {first second whole : List α} :
    Interleaved first second whole → Interleaved (x :: first) second (x :: whole)
  | right {x : α} {first second whole : List α} :
    Interleaved first second whole → Interleaved first (x :: second) (x :: whole)

namespace Interleaved

variable {first second whole : List α}

/-- What is in relation with interleaved lists is interleaved likewise. -/
theorem exists_forall₂ {R : α → β → Prop} (h : Interleaved first second whole) {images : List β}
    (himages : List.Forall₂ R whole images) :
    ∃ left right, List.Forall₂ R first left ∧ List.Forall₂ R second right ∧
      Interleaved left right images := by
  induction h generalizing images with
  | nil =>
      cases himages
      exact ⟨[], [], .nil, .nil, .nil⟩
  | left _ ih =>
      obtain _ | ⟨hx, himages⟩ := himages
      obtain ⟨left, right, hleft, hright, hwhole⟩ := ih himages
      exact ⟨_, right, .cons hx hleft, hright, hwhole.left⟩
  | right _ ih =>
      obtain _ | ⟨hx, himages⟩ := himages
      obtain ⟨left, right, hleft, hright, hwhole⟩ := ih himages
      exact ⟨left, _, hleft, .cons hx hright, hwhole.right⟩

theorem mem_iff {x : α} (h : Interleaved first second whole) :
    x ∈ whole ↔ x ∈ first ∨ x ∈ second := by
  induction h with
  | nil => simp
  | left _ ih => rw [List.mem_cons, List.mem_cons, ih, or_assoc]
  | right _ ih => rw [List.mem_cons, List.mem_cons, ih, or_left_comm]

/-- Assignments that share no slot can be taken out of one another. -/
theorem sameSlots {first second whole : List Assignment} (h : Interleaved first second whole)
    (happart : Assignment.Apart first second) :
    Assignment.SameSlots whole (first ++ second) := by
  induction h with
  | nil => exact .refl _
  | @left a first second whole _ ih =>
      exact (Assignment.SameSlots.refl [a]).append
        (ih fun b hb => happart b (List.mem_cons_of_mem _ hb))
  | @right a first second whole _ ih =>
      have hrest := ih fun b hb c hc => happart b hb c (List.mem_cons_of_mem _ hc)
      have hfirst : Assignment.Apart [a] first := fun b hb c hc =>
        (happart c hc b (List.mem_singleton.1 hb ▸ List.mem_cons_self)).symm
      refine ((Assignment.SameSlots.refl [a]).append hrest).trans ?_
      rw [← List.append_assoc, List.append_cons first]
      exact hfirst.sameSlots.append (.refl _)

end Interleaved

end PropertyGraph
