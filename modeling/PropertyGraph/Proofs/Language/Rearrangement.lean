import Mathlib.Data.List.Perm.Basic
import PropertyGraph.Proofs.Language.Literal
import PropertyGraph.Proofs.Language.Outline
import PropertyGraph.Proofs.Language.Slot

/-!
Items in another order. Items of different kinds fill different slots of the query, and so do
entries of different keys. So a text whose items are of different kinds makes the same query with
its items in any order, and with the entries of a section in two sections, if no key is in both.
-/

namespace PropertyGraph

open Text

/-- What an entry of a section fills by its key. -/
def Section.slot : Section → String → Slot
  | conditions => .condition
  | aggregations => .aggregation
  | filters => .filter

/-- The key of an entry; none if it is not one. -/
def Section.entryKey? (part : Section) (chunk : String) : Option String :=
  match part with
  | conditions | aggregations => (Entry.split? chunk.toList).map Prod.fst
  | filters => (Entry.splitFilter? chunk.toList).map Prod.fst

/-- The kind of item that fills the slot. -/
def Slot.kind? : Slot → Option Grammar.Kind
  | .condition _ => some (.entries .conditions)
  | .aggregation _ => some (.entries .aggregations)
  | .filter _ => some (.entries .filters)
  | .sorting => some .sorting
  | .limit => some .limit
  | _ => none

theorem Section.slot_injective (part : Section) : Function.Injective part.slot := by
  intro key other h
  cases part <;> cases h <;> rfl

theorem Section.kind?_slot (part : Section) (key : String) :
    (part.slot key).kind? = some (.entries part) := by
  cases part <;> rfl

theorem exists_of_mem_forall₂ {R : α → β → Prop} {as : List α} {bs : List β}
    (h : List.Forall₂ R as bs) {b : β} (hb : b ∈ bs) : ∃ a ∈ as, R a b := by
  induction h with
  | nil => cases hb
  | cons hab _ ih =>
      rcases List.mem_cons.1 hb with rfl | hb
      · exact ⟨_, List.mem_cons_self, hab⟩
      · obtain ⟨a, ha, hR⟩ := ih hb
        exact ⟨a, List.mem_cons_of_mem _ ha, hR⟩

namespace Grammar

/-- An entry has a key, and fills the slot of its section by it. -/
theorem Entry.slot {part : Section} {chunk : String} {a : Assignment} (h : Entry part chunk a) :
    ∃ key, part.entryKey? chunk = some key ∧ a.slot = part.slot key := by
  cases h with
  | condition hsplit _ => exact ⟨_, by rw [Section.entryKey?, hsplit]; rfl, rfl⟩
  | aggregation hsplit _ => exact ⟨_, by rw [Section.entryKey?, hsplit]; rfl, rfl⟩
  | filter hsplit _ => exact ⟨_, by rw [Section.entryKey?, hsplit]; rfl, rfl⟩

/-- Entries without a common key share no slot. -/
theorem apart_of_keys {part : Section} {first second : List String}
    {left right : List Assignment} (hfirst : List.Forall₂ (Entry part) first left)
    (hsecond : List.Forall₂ (Entry part) second right)
    (hkeys : ∀ a ∈ first, ∀ b ∈ second, part.entryKey? a ≠ part.entryKey? b) :
    Assignment.Apart left right := by
  intro a ha b hb hslot
  obtain ⟨chunk, hchunk, hentry⟩ := exists_of_mem_forall₂ hfirst ha
  obtain ⟨other, hother, hentry'⟩ := exists_of_mem_forall₂ hsecond hb
  obtain ⟨key, hkey, haslot⟩ := hentry.slot
  obtain ⟨key', hkey', hbslot⟩ := hentry'.slot
  obtain rfl := part.slot_injective (haslot.symm.trans (hslot.trans hbslot))
  exact hkeys chunk hchunk other hother (hkey.trans hkey'.symm)

namespace BodyItem

variable {items others : List BodyItem} {each : List (List Assignment)}

/-- What an item assigns fills slots of the kind of the item. -/
theorem Assigns.kind?_slot {item : BodyItem} {assigned : List Assignment}
    (h : item.Assigns assigned) {a : Assignment} (ha : a ∈ assigned) :
    a.slot.kind? = some item.kind := by
  cases h with
  | entries hentries =>
      obtain ⟨chunk, -, hentry⟩ := exists_of_mem_forall₂ hentries ha
      obtain ⟨key, -, hslot⟩ := hentry.slot
      rw [hslot, Section.kind?_slot]
      rfl
  | sorting _ =>
      obtain rfl := List.mem_singleton.1 ha
      rfl
  | limit _ =>
      obtain rfl := List.mem_singleton.1 ha
      rfl

theorem Assigns.apart {item other : BodyItem} {first second : List Assignment}
    (h : item.Assigns first) (h' : other.Assigns second) (hkind : item.kind ≠ other.kind) :
    Assignment.Apart first second := fun a ha b hb hslot => by
  have hsame := (h.kind?_slot ha).symm.trans (hslot ▸ h'.kind?_slot hb)
  exact hkind (Option.some.inj hsame)

theorem pairwise_apart (h : List.Forall₂ Assigns items each) (hkinds : (items.map kind).Nodup) :
    each.Pairwise Assignment.Apart := by
  induction h with
  | nil => exact .nil
  | cons hitem hrest ih =>
      obtain ⟨hkind, hkinds⟩ := List.nodup_cons.1 hkinds
      refine .cons (fun assigned hassigned => ?_) (ih hkinds)
      obtain ⟨other, hother, hassigns⟩ := exists_of_mem_forall₂ hrest hassigned
      exact hitem.apart hassigns fun hsame => hkind (hsame ▸ List.mem_map_of_mem hother)

/-- The items in another order, or with two sections for the entries of one, of which neither has a
key of the other. -/
inductive Rearranged (items : List BodyItem) : List BodyItem → Prop where
  | permuted {others : List BodyItem} : items.Perm others → Rearranged items others
  | split {part : Section} {chunks first second : List String} {rest others : List BodyItem} :
    items.Perm (.entries part chunks :: rest) → Interleaved first second chunks →
    (∀ a ∈ first, ∀ b ∈ second, part.entryKey? a ≠ part.entryKey? b) →
    (.entries part first :: .entries part second :: rest).Perm others → Rearranged items others

/-- Items in another order assign the same in another order. -/
theorem exists_of_perm (hperm : items.Perm others) (h : List.Forall₂ Assigns items each) :
    ∃ more, List.Forall₂ Assigns others more ∧ each.Perm more := by
  obtain ⟨more, hmore, heach⟩ := List.perm_comp_forall₂ hperm.symm h
  exact ⟨more, hmore, heach.symm⟩

/-- The entries of a section in two sections without a common key fill the same slots. -/
theorem Assigns.split {part : Section} {chunks first second : List String}
    {assigned : List Assignment} (h : (BodyItem.entries part chunks).Assigns assigned)
    (hwhole : Interleaved first second chunks)
    (hkeys : ∀ a ∈ first, ∀ b ∈ second, part.entryKey? a ≠ part.entryKey? b) :
    ∃ left right, (BodyItem.entries part first).Assigns left ∧
      (BodyItem.entries part second).Assigns right ∧ Interleaved left right assigned ∧
      Assignment.Apart left right := by
  cases h with
  | entries hentries =>
      obtain ⟨left, right, hleft, hright, hassigned⟩ := hwhole.exists_forall₂ hentries
      exact ⟨left, right, .entries hleft, .entries hright, hassigned,
        apart_of_keys hleft hright hkeys⟩

/-- Rearranged items of different kinds fill each slot as before. -/
theorem Rearranged.sameSlots (h : Rearranged items others) (hkinds : (items.map kind).Nodup)
    (hitems : List.Forall₂ Assigns items each) :
    ∃ more, List.Forall₂ Assigns others more ∧
      Assignment.SameSlots each.flatten more.flatten := by
  have hpairwise := pairwise_apart hitems hkinds
  cases h with
  | permuted hperm =>
      obtain ⟨more, hmore, heach⟩ := exists_of_perm hperm hitems
      exact ⟨more, hmore, Assignment.sameSlots_of_perm heach hpairwise⟩
  | split hperm hwhole hkeys hothers =>
      obtain ⟨_, hfront, heach⟩ := exists_of_perm hperm hitems
      obtain _ | @⟨_, assigned, _, each', hsection, hrest⟩ := hfront
      obtain ⟨left, right, hleft, hright, hassigned, happart⟩ := hsection.split hwhole hkeys
      obtain ⟨more, hmore, hsplit⟩ :=
        exists_of_perm hothers (.cons hleft (.cons hright hrest))
      refine ⟨more, hmore, ?_⟩
      have hfront := (heach.pairwise_iff fun {_ _} => Assignment.Apart.symm).1 hpairwise
      obtain ⟨hfar, hrest⟩ := List.pairwise_cons.1 hfront
      have hpair : (left :: right :: each').Pairwise Assignment.Apart := by
        refine .cons (List.forall_mem_cons.2 ⟨happart, fun assigned' h' a ha => ?_⟩)
          (.cons (fun assigned' h' a ha => ?_) hrest)
        · exact hfar assigned' h' a (hassigned.mem_iff.2 (.inl ha))
        · exact hfar assigned' h' a (hassigned.mem_iff.2 (.inr ha))
      have hsections : Assignment.SameSlots (assigned :: each').flatten
          (left :: right :: each').flatten := by
        rw [List.flatten_cons, List.flatten_cons, List.flatten_cons, ← List.append_assoc]
        exact (hassigned.sameSlots happart).append (.refl _)
      exact ((Assignment.sameSlots_of_perm heach hpairwise).trans hsections).trans
        (Assignment.sameSlots_of_perm hsplit hpair)

end BodyItem

end Grammar

namespace Query

/-- Every text that makes a query has an outline. If its items are of different kinds, a text with
the same outline but for the order of the items, or for the entries of one section in two sections
without a common key, makes an equal query of the same key. -/
theorem ofText_rearranged {text : List Char} {q : Query}
    (h : ofText (String.ofList text) = .ok q) :
    (∃ o : Grammar.Outline, o.IsValid ∧ Token.lexemes? text = some o.lexemes) ∧
      ∀ o : Grammar.Outline, o.IsValid → Token.lexemes? text = some o.lexemes →
        (o.items.map Grammar.BodyItem.kind).Nodup →
        ∀ items, Grammar.BodyItem.Rearranged o.items items →
        ∀ other, Token.lexemes? other = some { o with items := items : Grammar.Outline }.lexemes →
          ∃ p, ofText (String.ofList other) = .ok p ∧ q.equal p = true ∧
            ∃ key, q.key = .ok key ∧ p.key = .ok key := by
  refine ⟨exists_outline h, ?_⟩
  rintro o ⟨named, led, each, ho⟩ htext hkinds items hitems other hother
  obtain ⟨more, hmore, hslots⟩ := hitems.sameSlots hkinds ho.items
  have hq := ofText_of_outline ho htext
  have hp := ofText_of_outline (o := { o with items := items }) { ho with items := hmore } hother
  obtain rfl := Except.ok.inj (h.symm.trans hq)
  have hsame := Assignment.SameSlots.sameBindings <|
    (Assignment.SameSlots.refl named).append ((Assignment.SameSlots.refl led).append hslots)
  obtain ⟨hconditions, hfilters, -⟩ :=
    compared_of_ofText (fun _ _ => Literal.equal_self_of_read) h
  obtain ⟨key, hkey⟩ := (ofLiterals_of_ofText h).exists_key
  exact ⟨_, hp, hsame.equal hconditions hfilters, key, hkey, hsame.key_eq ▸ hkey⟩

/-- The limit before the conditions, and these in two sections. -/
theorem ofText_rearranged_sections :
    ∃ q p key, ofText "WHERE \x7b a: 1\nb: x \x7d\nLIMIT 5" = .ok q ∧
      ofText "LIMIT 5\nWHERE \x7b b: x \x7d\nWHERE \x7b a: 1 \x7d" = .ok p ∧
      q.equal p = true ∧ q.key = .ok key ∧ p.key = .ok key := by
  let o : Grammar.Outline :=
    ⟨[], .none, [.entries .conditions ["a: 1", "b: x"], .limit "LIMIT 5"]⟩
  have ha : Grammar.Entry .conditions "a: 1" (.condition "a" (.int 1)) :=
    .condition rfl (Literal.read_of_not_bracketed? rfl)
  have hb : Grammar.Entry .conditions "b: x" (.condition "b" (.str "x")) :=
    .condition rfl (Literal.read_of_not_bracketed? rfl)
  have hlimit : Grammar.Directive "LIMIT 5" (.limit 5) := .limit (by decide) rfl rfl
  have ho : o.Assigns [] [] [[.condition "a" (.int 1), .condition "b" (.str "x")], [.limit 5]] :=
    ⟨.nil, .none, .cons (.entries (.cons ha (.cons hb .nil))) (.cons (.limit hlimit) .nil)⟩
  have htext : Token.lexemes? "WHERE \x7b a: 1\nb: x \x7d\nLIMIT 5".toList = some o.lexemes := by
    decide +kernel
  have hq := ofText_of_outline ho htext
  have hitems : Grammar.BodyItem.Rearranged o.items
      [.limit "LIMIT 5", .entries .conditions ["b: x"], .entries .conditions ["a: 1"]] := by
    have hsection : o.items.Perm (.entries .conditions ["a: 1", "b: x"] :: [.limit "LIMIT 5"]) :=
      .refl _
    exact .split hsection (.left (.right .nil)) (by decide +kernel) (List.reverse_perm _).symm
  obtain ⟨p, hp, hequal, key, hkey, hkey'⟩ := (ofText_rearranged hq).2 o ⟨_, _, _, ho⟩ htext
    (by decide +kernel) _ hitems "LIMIT 5\nWHERE \x7b b: x \x7d\nWHERE \x7b a: 1 \x7d".toList
    (by decide +kernel)
  exact ⟨_, p, key, hq, hp, hequal, hkey, hkey'⟩

end Query

end PropertyGraph
