import PropertyGraph.Proofs.Number.Order
import PropertyGraph.Proofs.Value.Key

/-!
The order of values. It is undecided for many pairs, but where all of some values are decided
against each other it is a total preorder of them, sequences included: that is what sorting asks for.
-/

namespace PropertyGraph

open Std

/-- An order of three, from those of neighbours that do not descend. -/
theorem compare_eq_then {α : Type u} {cmp : α → α → Ordering} [TransCmp cmp] {a b c : α}
    (hab : (cmp a b).isLE = true) (hbc : (cmp b c).isLE = true) :
    cmp a c = (cmp a b).then (cmp b c) := by
  cases h : cmp a b with
  | lt => exact TransCmp.lt_of_lt_of_isLE h hbc
  | eq => exact TransCmp.congr_left h
  | gt => rw [h] at hab; cases hab

namespace Value

theorem compareLists_eq_compareLex {α : Type u} (cmp : α → α → Ordering) (as bs : List α) :
    compareLists cmp as bs = List.compareLex cmp as bs := by
  induction as generalizing bs with
  | nil => cases bs <;> rfl
  | cons a as ih =>
      cases bs with
      | nil => rfl
      | cons b bs => rw [compareLists, List.compareLex_cons_cons, ih]

/-- The order of byte strings. -/
def compareBytes : List UInt8 → List UInt8 → Ordering :=
  compareLists fun x y => compare x.toNat y.toNat

theorem compareBytes_eq : compareBytes = List.compareLex (compareOn UInt8.toNat) :=
  funext fun as => funext fun bs => compareLists_eq_compareLex _ as bs

instance transCmp_compareBytes : TransCmp compareBytes := by
  rw [compareBytes_eq]
  infer_instance

instance lawfulEqCmp_compareBytes : LawfulEqCmp compareBytes := by
  have : LawfulEqCmp (compareOn UInt8.toNat) :=
    ⟨fun h => UInt8.toNat_inj.1 (LawfulEqOrd.eq_of_compare h)⟩
  rw [compareBytes_eq]
  infer_instance

end Value

namespace AtomKey

/-- The order of two keys. Keys of one kind are decided against each other, NaN apart. -/
def order? : AtomKey → AtomKey → Option Ordering
  | .null, .null => some .eq
  | .truth b, .truth c => some (compare b c)
  | .number x, .number y => some (x.compare y)
  | .text s, .text t => some (compare s t)
  | .day m, .day n => some (compare m n)
  | .localTime m, .localTime n => some (compare m n)
  | .instant m, .instant n => some (compare m n)
  | .bytes a, .bytes b => some (Value.compareBytes a b)
  | _, _ => none

variable {k l m : AtomKey} {o p : Ordering}

theorem order?_swap : l.order? k = (k.order? l).map Ordering.swap := by
  cases k <;> cases l <;> simp [order?]
  all_goals exact OrientedCmp.eq_swap

theorem order?_trans (hkl : k.order? l = some o) (hlm : l.order? m = some p)
    (ho : o.isLE = true) (hp : p.isLE = true) : k.order? m = some (o.then p) := by
  cases k <;> cases l <;> cases hkl <;> cases m <;> cases hlm
  · rfl
  all_goals exact congrArg some (compare_eq_then ho hp)

theorem order?_self (hnan : k ≠ .nan) : k.order? k = some .eq := by
  cases k <;> simp [order?] at hnan ⊢

/-- Keys are in the order of equals only if they are one. -/
theorem order?_eq_iff (h : k.order? l = some o) : o = .eq ↔ k ≠ .nan ∧ l = k := by
  rw [eq_comm (a := l)]
  cases k <;> cases l <;> cases h <;> simp

end AtomKey

namespace Value

/-- The order of two values. Equal values are in order although they may be of a kind that has
none. -/
def order? (a b : Value) : Option Ordering :=
  if a.equal b then some .eq else (a.relate b).toOption.join

theorem order?_numberKey (m n : Number) :
    (numberKey m).order? (numberKey n) = m.compare? n := by
  rw [Number.compare?_eq_places]
  unfold numberKey
  cases m.place? <;> cases n.place? <;> rfl

theorem exists_atomKey {a : Value} (ha : a.isAtom = true) :
    ∃ k, a.elementKey? = some (.atom k) := by
  cases a <;> first | exact ⟨_, rfl⟩ | cases ha

theorem relateScalars_of_numeric? {a b : Value} {m n : Number} (ha : a.numeric? = some m)
    (hb : b.numeric? = some n) : a.relateScalars b = .ok (m.compare? n) := by
  cases a <;> cases ha <;> cases b <;> cases hb <;> rfl

/-- Times are in order as instants or as local times, not with one another. -/
theorem relateScalars_dateTime {t u : DateTime} {k l : AtomKey}
    (hk : (dateTime t).elementKey? = some (.atom k))
    (hl : (dateTime u).elementKey? = some (.atom l)) :
    ((dateTime t).relateScalars (dateTime u)).toOption.join = k.order? l := by
  rw [elementKey?] at hk hl
  rw [relateScalars]
  cases ht : t.isAware <;> cases hu : u.isAware <;> rw [ht] at hk <;> rw [hu] at hl <;>
    cases hk <;> cases hl <;> rfl

/-- Values without elements are related as their keys are, null apart. -/
theorem relateScalars_eq_order? {a b : Value} {k l : AtomKey} (ha : a.isAtom = true)
    (hb : b.isAtom = true) (hk : a.elementKey? = some (.atom k))
    (hl : b.elementKey? = some (.atom l)) (hnull : a ≠ .null) :
    (a.relateScalars b).toOption.join = k.order? l := by
  cases hm : a.numeric? with
  | some m =>
      obtain rfl : numberKey m = k := by simpa [elementKey?_of_numeric? hm] using hk
      cases hn : b.numeric? with
      | some n =>
          obtain rfl : numberKey n = l := by simpa [elementKey?_of_numeric? hn] using hl
          rw [relateScalars_of_numeric? hm hn, order?_numberKey]
          rfl
      | none =>
          have hnone : (a.relateScalars b).toOption = none := by
            cases a <;> cases hm <;> cases b <;> first | rfl | cases hn
          rw [hnone]
          rcases numberKey_eq m with hkey | ⟨place, hkey⟩ <;> rw [hkey] <;> clear hkey hnull
          all_goals cases b <;> cases hn <;> cases hb <;> cases hl <;> (repeat' split) <;> rfl
  | none =>
      -- Two values of one kind are compared as their keys are; those of two kinds are undecided.
      cases a <;> cases hm <;> cases ha <;> cases b <;> cases hb <;> cases hk <;> cases hl
      all_goals first
        | rfl
        | exact absurd rfl hnull
        | (rw [numberKey]; (repeat' split) <;> rfl)
        | exact relateScalars_dateTime rfl rfl
        | ((repeat' split) <;> rfl)

theorem relate_eq_relateScalars {a : Value} (ha : a.isAtom = true) (b : Value) :
    a.relate b = a.relateScalars b := by
  cases a <;> cases b <;> first | rfl | cases ha

theorem equal_iff_key {a b : Value} {k l : AtomKey} (ha : a.isAtom = true)
    (hk : a.elementKey? = some (.atom k)) (hl : b.elementKey? = some (.atom l)) :
    a.equal b = true ↔ k ≠ .nan ∧ l = k := by
  rw [equal_iff_of_isAtom ha hk, hl, isReflexive_atom]
  simp

/-- Values without elements are in the order of their keys. -/
theorem order?_of_isAtom {a b : Value} {k l : AtomKey} (ha : a.isAtom = true)
    (hb : b.isAtom = true) (hk : a.elementKey? = some (.atom k))
    (hl : b.elementKey? = some (.atom l)) : a.order? b = k.order? l := by
  have hequal := equal_iff_key ha hk hl
  rw [order?]
  split
  · next h =>
    obtain ⟨hnan, rfl⟩ := hequal.1 h
    exact (AtomKey.order?_self hnan).symm
  · next h =>
    rw [relate_eq_relateScalars ha]
    by_cases hnull : a = .null
    -- Null equals itself but is not related to anything.
    · subst hnull
      obtain rfl : AtomKey.null = k := by simpa [elementKey?] using hk
      have hundecided : (null.relateScalars b).toOption = none := by cases b <;> rfl
      rw [hundecided]
      cases l <;> first | rfl | exact absurd (hequal.2 ⟨nofun, rfl⟩) h
    · exact relateScalars_eq_order? ha hb hk hl hnull

/-- Where the order of two values without elements is known it agrees with equality. -/
theorem relate_eq_iff_of_isAtom {a b : Value} {o : Ordering} (ha : a.isAtom = true)
    (h : a.relate b = .ok (some o)) : o = .eq ↔ a.equal b = true := by
  rw [relate_eq_relateScalars ha] at h
  obtain ⟨k, hk⟩ := exists_atomKey ha
  have hb : b.isAtom = true := by
    cases a <;> cases ha <;> cases b <;> first | rfl | cases h
  obtain ⟨l, hl⟩ := exists_atomKey hb
  have hnull : a ≠ .null := by
    rintro rfl
    cases b <;> cases h
  have hkl := relateScalars_eq_order? ha hb hk hl hnull
  rw [h] at hkl
  rw [equal_iff_key ha hk hl]
  exact AtomKey.order?_eq_iff hkl.symm

mutual

/-- Where an order is known it agrees with equality. -/
theorem relate_eq_iff : ∀ (a b : Value) {o : Ordering}, a.relate b = .ok (some o) →
    (o = .eq ↔ a.equal b = true)
  | .tuple as, b, _, h => by
      cases b with
      | tuple bs => exact relateItems_eq_iff as bs h
      | _ => cases h
  | .list as, b, _, h => by
      cases b with
      | list bs => exact relateItems_eq_iff as bs h
      | _ => cases h
  | .dict _, b, _, h => by cases b <;> cases h
  | .null, _, _, h | .bool _, _, _, h | .int _, _, _, h | .float _, _, _, h | .str _, _, _, h
  | .date _, _, _, h | .dateTime _, _, _, h | .bytes _, _, _, h => relate_eq_iff_of_isAtom rfl h

theorem relateItems_eq_iff : ∀ (as bs : List Value) {o : Ordering},
    relateItems as bs = .ok (some o) → (o = .eq ↔ equalItems as bs = true)
  | [], [], _, h | [], _ :: _, _, h | _ :: _, [], _, h => by
      cases h
      simp [equalItems]
  | a :: as, b :: bs, o, h => by
      rw [relateItems] at h
      rw [equalItems]
      cases hequal : a.equal b with
      | true =>
          rw [hequal] at h
          exact relateItems_eq_iff as bs h
      | false =>
          rw [hequal] at h
          rw [relate_eq_iff a b h, hequal]
          rfl

end

/-- The order of two sequences is that of the first elements that are not in order as equals. -/
def orderItems? : List Value → List Value → Option Ordering
  | [], [] => some .eq
  | [], _ :: _ => some .lt
  | _ :: _, [] => some .gt
  | a :: as, b :: bs =>
    match a.order? b with
    | some .eq => orderItems? as bs
    | o => o

theorem order?_of_equal {a b : Value} (h : a.equal b = true) : a.order? b = some .eq := if_pos h

theorem order?_of_not_equal {a b : Value} (h : a.equal b = false) :
    a.order? b = (a.relate b).toOption.join := if_neg (by simp [h])

theorem toOption_join_eq_some_iff {ε : Type u} {α : Type v} {x : Except ε (Option α)} {a : α} :
    x.toOption.join = some a ↔ x = .ok (some a) := by
  rcases x with _ | _ | _ <;> simp [Except.toOption]

/-- Values are in the order of equals exactly if they are equal. -/
theorem order?_eq_eq_iff {a b : Value} : a.order? b = some .eq ↔ a.equal b = true := by
  refine ⟨fun h => ?_, order?_of_equal⟩
  cases hequal : a.equal b with
  | true => rfl
  | false =>
      rw [order?_of_not_equal hequal, toOption_join_eq_some_iff] at h
      rw [← hequal, ← relate_eq_iff a b h]

/-- A known order is the one that values are in. -/
theorem order?_of_relate {a b : Value} {o : Ordering} (h : a.relate b = .ok (some o)) :
    a.order? b = some o := by
  cases hequal : a.equal b with
  | true => rw [order?_of_equal hequal, (relate_eq_iff a b h).2 hequal]
  | false => rw [order?_of_not_equal hequal, h]; rfl

theorem order?_items (as bs : List Value) :
    (if equalItems as bs then some .eq else (relateItems as bs).toOption.join) =
      orderItems? as bs := by
  induction as generalizing bs with
  | nil => cases bs <;> rfl
  | cons a as ih =>
      cases bs with
      | nil => rfl
      | cons b bs =>
          rw [equalItems, relateItems, orderItems?]
          cases hequal : a.equal b with
          | true =>
              rw [order?_of_equal hequal]
              exact ih bs
          | false =>
              have hne : a.order? b ≠ some .eq := by simp [order?_eq_eq_iff, hequal]
              show (a.relate b).toOption.join = _
              rw [← order?_of_not_equal hequal]
              split
              · next h => exact absurd h hne
              · rfl

/-- A tuple is in order only with tuples. -/
theorem exists_of_order?_tuple {as : List Value} {b : Value} {o : Ordering}
    (h : (tuple as).order? b = some o) : ∃ bs, b = tuple bs ∧ orderItems? as bs = some o := by
  cases b with
  | tuple bs => exact ⟨bs, rfl, (order?_items as bs).symm.trans h⟩
  | _ => cases h

/-- A list is in order only with lists. -/
theorem exists_of_order?_list {as : List Value} {b : Value} {o : Ordering}
    (h : (list as).order? b = some o) : ∃ bs, b = list bs ∧ orderItems? as bs = some o := by
  cases b with
  | list bs => exact ⟨bs, rfl, (order?_items as bs).symm.trans h⟩
  | _ => cases h

/-- The first elements decide, unless they are equal; they descend only if the sequences do. -/
theorem exists_order?_of_cons {a b : Value} {as bs : List Value} {o : Ordering}
    (h : orderItems? (a :: as) (b :: bs) = some o) :
    ∃ x, a.order? b = some x ∧ (x = .eq → orderItems? as bs = some o) ∧ (x ≠ .eq → o = x) ∧
      (o.isLE = true → x.isLE = true) := by
  rw [orderItems?] at h
  split at h
  · next hfirst => exact ⟨.eq, hfirst, fun _ => h, fun hne => absurd rfl hne, fun _ => rfl⟩
  · next hfirst => exact ⟨o, h, fun heq => absurd (heq ▸ h) hfirst, fun _ => rfl, id⟩

/-- A mapping is in order only with mappings that it equals. -/
theorem order?_dict {as : List (Value × Value)} {b : Value} {o : Ordering}
    (h : (dict as).order? b = some o) : o = .eq ∧ ∃ bs, b = dict bs := by
  cases b with
  | dict bs =>
      refine ⟨?_, bs, rfl⟩
      rw [order?] at h
      split at h
      · exact (Option.some.inj h).symm
      · cases h
  | _ => cases h

/-- A value without elements is in order only with others without elements. -/
theorem isAtom_of_order? {a b : Value} {o : Ordering} (ha : a.isAtom = true)
    (h : a.order? b = some o) : b.isAtom = true := by
  cases a <;> cases ha <;> cases b <;> first | rfl | cases h

theorem order?_swap_of_isAtom {a b : Value} {o p : Ordering} (ha : a.isAtom = true)
    (hab : a.order? b = some o) (hba : b.order? a = some p) : p = o.swap := by
  have hb := isAtom_of_order? ha hab
  obtain ⟨k, hk⟩ := exists_atomKey ha
  obtain ⟨l, hl⟩ := exists_atomKey hb
  rw [order?_of_isAtom ha hb hk hl] at hab
  rw [order?_of_isAtom hb ha hl hk, AtomKey.order?_swap, hab] at hba
  exact (Option.some.inj hba).symm

theorem order?_trans_of_isAtom {a b c : Value} {o p q : Ordering} (ha : a.isAtom = true)
    (hab : a.order? b = some o) (hbc : b.order? c = some p) (hac : a.order? c = some q)
    (ho : o.isLE = true) (hp : p.isLE = true) : q = o.then p := by
  have hb := isAtom_of_order? ha hab
  have hc := isAtom_of_order? ha hac
  obtain ⟨k, hk⟩ := exists_atomKey ha
  obtain ⟨l, hl⟩ := exists_atomKey hb
  obtain ⟨m, hm⟩ := exists_atomKey hc
  rw [order?_of_isAtom ha hb hk hl] at hab
  rw [order?_of_isAtom hb hc hl hm] at hbc
  rw [order?_of_isAtom ha hc hk hm, AtomKey.order?_trans hab hbc ho hp] at hac
  exact (Option.some.inj hac).symm

mutual

/-- If two values are decided both ways, one order is the other one turned round. -/
theorem order?_swap : ∀ (a : Value) {b : Value} {o p : Ordering},
    a.order? b = some o → b.order? a = some p → p = o.swap
  | .tuple as, _, _, _, hab, hba => by
      obtain ⟨bs, rfl, hitems⟩ := exists_of_order?_tuple hab
      obtain ⟨_, ⟨⟩, hitems'⟩ := exists_of_order?_tuple hba
      exact orderItems?_swap as hitems hitems'
  | .list as, _, _, _, hab, hba => by
      obtain ⟨bs, rfl, hitems⟩ := exists_of_order?_list hab
      obtain ⟨_, ⟨⟩, hitems'⟩ := exists_of_order?_list hba
      exact orderItems?_swap as hitems hitems'
  | .dict as, b, _, _, hab, hba => by
      obtain ⟨rfl, bs, rfl⟩ := order?_dict hab
      exact (order?_dict hba).1
  | .null, _, _, _, hab, hba | .bool _, _, _, _, hab, hba | .int _, _, _, _, hab, hba
  | .float _, _, _, _, hab, hba | .str _, _, _, _, hab, hba | .date _, _, _, _, hab, hba
  | .dateTime _, _, _, _, hab, hba | .bytes _, _, _, _, hab, hba =>
      order?_swap_of_isAtom rfl hab hba

theorem orderItems?_swap : ∀ (as : List Value) {bs : List Value} {o p : Ordering},
    orderItems? as bs = some o → orderItems? bs as = some p → p = o.swap
  | [], [], _, _, hab, hba | [], _ :: _, _, _, hab, hba | _ :: _, [], _, _, hab, hba => by
      cases hab
      cases hba
      rfl
  | a :: as, b :: bs, o, p, hab, hba => by
      obtain ⟨x, hx, hxrest, hxo, -⟩ := exists_order?_of_cons hab
      obtain ⟨y, hy, hyrest, hyo, -⟩ := exists_order?_of_cons hba
      obtain rfl := order?_swap a hx hy
      cases x with
      | eq => exact orderItems?_swap as (hxrest rfl) (hyrest rfl)
      | lt => rw [hxo nofun, hyo nofun]
      | gt => rw [hxo nofun, hyo nofun]

end

mutual

/-- Three values that are decided against each other, the neighbours not descending. -/
theorem order?_trans : ∀ (a : Value) {b c : Value} {o p q : Ordering},
    a.order? b = some o → b.order? c = some p → a.order? c = some q →
      o.isLE = true → p.isLE = true → q = o.then p
  | .tuple as, _, _, _, _, _, hab, hbc, hac => by
      obtain ⟨bs, rfl, hitems⟩ := exists_of_order?_tuple hab
      obtain ⟨cs, rfl, hitems'⟩ := exists_of_order?_tuple hbc
      obtain ⟨_, ⟨⟩, hitems''⟩ := exists_of_order?_tuple hac
      exact orderItems?_trans as hitems hitems' hitems''
  | .list as, _, _, _, _, _, hab, hbc, hac => by
      obtain ⟨bs, rfl, hitems⟩ := exists_of_order?_list hab
      obtain ⟨cs, rfl, hitems'⟩ := exists_of_order?_list hbc
      obtain ⟨_, ⟨⟩, hitems''⟩ := exists_of_order?_list hac
      exact orderItems?_trans as hitems hitems' hitems''
  | .dict as, b, c, _, _, _, hab, hbc, hac => by
      obtain ⟨rfl, bs, rfl⟩ := order?_dict hab
      obtain ⟨rfl, -⟩ := order?_dict hbc
      exact fun _ _ => (order?_dict hac).1
  | .null, _, _, _, _, _, hab, hbc, hac | .bool _, _, _, _, _, _, hab, hbc, hac
  | .int _, _, _, _, _, _, hab, hbc, hac | .float _, _, _, _, _, _, hab, hbc, hac
  | .str _, _, _, _, _, _, hab, hbc, hac | .date _, _, _, _, _, _, hab, hbc, hac
  | .dateTime _, _, _, _, _, _, hab, hbc, hac | .bytes _, _, _, _, _, _, hab, hbc, hac =>
      order?_trans_of_isAtom rfl hab hbc hac

theorem orderItems?_trans : ∀ (as : List Value) {bs cs : List Value} {o p q : Ordering},
    orderItems? as bs = some o → orderItems? bs cs = some p → orderItems? as cs = some q →
      o.isLE = true → p.isLE = true → q = o.then p
  | [], [], cs, _, _, _, hab, hbc, hac, _, _ => by
      cases hab
      exact Option.some.inj (hac.symm.trans hbc)
  | [], _ :: _, [], _, _, _, _, hbc, _, _, hp => by
      cases hbc
      cases hp
  | [], _ :: _, _ :: _, _, _, _, hab, _, hac, _, _ => by
      cases hab
      exact (Option.some.inj hac).symm
  | _ :: _, [], _, _, _, _, hab, _, _, ho, _ => by
      cases hab
      cases ho
  | _ :: _, _ :: _, [], _, _, _, _, hbc, _, _, hp => by
      cases hbc
      cases hp
  | a :: as, b :: bs, c :: cs, o, p, q, hab, hbc, hac, ho, hp => by
      obtain ⟨x, hx, hxrest, hxo, hxle⟩ := exists_order?_of_cons hab
      obtain ⟨y, hy, hyrest, hyo, hyle⟩ := exists_order?_of_cons hbc
      obtain ⟨z, hz, hzrest, hzo, -⟩ := exists_order?_of_cons hac
      obtain rfl := order?_trans a hx hy hz (hxle ho) (hyle hp)
      -- The first elements that are not equal decide all three orders.
      cases x with
      | gt => cases hxle ho
      | lt => rw [hxo nofun]; exact hzo nofun
      | eq =>
          cases y with
          | gt => cases hyle hp
          | eq => exact orderItems?_trans as (hxrest rfl) (hyrest rfl) (hzrest rfl) ho hp
          | lt =>
              rw [hyo nofun, hzo nofun]
              cases o with
              | gt => cases ho
              | _ => rfl

end

/-- The first value is smaller, equal or larger; neither kinds nor a NaN stand in the way. -/
def Comparable (a b : Value) : Prop := a.less b = true ∨ a.equal b = true ∨ a.greater b = true

/-- The first value is smaller or equal. -/
def AtMost (a b : Value) : Prop := a.less b = true ∨ a.equal b = true

theorem order?_iff_relate {a b : Value} {o : Ordering} (h : o ≠ .eq) :
    a.order? b = some o ↔ a.relate b = .ok (some o) := by
  refine ⟨fun horder => ?_, order?_of_relate⟩
  cases hequal : a.equal b with
  | true =>
      rw [order?_of_equal hequal] at horder
      exact absurd (Option.some.inj horder).symm h
  | false => rwa [order?_of_not_equal hequal, toOption_join_eq_some_iff] at horder

theorem less_iff {a b : Value} : a.less b = true ↔ a.order? b = some .lt := by
  rw [order?_iff_relate (o := .lt) nofun, less]
  split <;> simp_all

theorem greater_iff {a b : Value} : a.greater b = true ↔ a.order? b = some .gt := by
  rw [order?_iff_relate (o := .gt) nofun, greater]
  split <;> simp_all

theorem comparable_iff {a b : Value} : a.Comparable b ↔ ∃ o, a.order? b = some o := by
  rw [Comparable, less_iff, greater_iff, ← order?_eq_eq_iff]
  constructor
  · rintro (h | h | h) <;> exact ⟨_, h⟩
  · rintro ⟨_ | _ | _, h⟩ <;> simp [h]

theorem atMost_iff {a b : Value} : a.AtMost b ↔ ∃ o, a.order? b = some o ∧ o.isLE = true := by
  rw [AtMost, less_iff, ← order?_eq_eq_iff]
  constructor
  · rintro (h | h) <;> exact ⟨_, h, rfl⟩
  · rintro ⟨_ | _ | _, h, hle⟩
    · exact .inl h
    · exact .inr h
    · cases hle

/-- Numbers and truth values are comparable unless one is NaN. -/
theorem comparable_of_numeric? {a b : Value} {m n : Number} (ha : a.numeric? = some m)
    (hb : b.numeric? = some n) (hm : m.place?.isSome = true) (hn : n.place?.isSome = true) :
    a.Comparable b := by
  obtain ⟨x, hx⟩ := Option.isSome_iff_exists.1 hm
  obtain ⟨y, hy⟩ := Option.isSome_iff_exists.1 hn
  have hatom : a.isAtom = true := by cases a <;> first | rfl | cases ha
  refine comparable_iff.2 ⟨x.compare y, order?_of_relate ?_⟩
  rw [relate_eq_relateScalars hatom, relateScalars_of_numeric? ha hb, Number.compare?_eq_places,
    hx, hy]
  rfl

theorem comparable_str (s t : String) : (str s).Comparable (str t) :=
  comparable_iff.2 ⟨compare s t, order?_of_relate rfl⟩

theorem comparable_date (d e : Date) : (date d).Comparable (date e) :=
  comparable_iff.2 ⟨compare d.number e.number, order?_of_relate rfl⟩

section

variable {S : Value → Prop} {a b c : Value} (hS : ∀ a b, S a → S b → a.Comparable b)

include hS

theorem exists_order? (ha : S a) (hb : S b) :
    ∃ o, a.order? b = some o ∧ b.order? a = some o.swap := by
  obtain ⟨o, ho⟩ := comparable_iff.1 (hS a b ha hb)
  obtain ⟨p, hp⟩ := comparable_iff.1 (hS b a hb ha)
  exact ⟨o, ho, hp.trans (congrArg some (order?_swap a ho hp))⟩

theorem atMost_total (ha : S a) (hb : S b) : a.AtMost b ∨ b.AtMost a := by
  obtain ⟨o, hab, hba⟩ := exists_order? hS ha hb
  rw [atMost_iff, atMost_iff, hab, hba]
  cases o <;> simp

theorem atMost_trans (ha : S a) (hc : S c) (hab : a.AtMost b) (hbc : b.AtMost c) :
    a.AtMost c := by
  obtain ⟨o, ho, hole⟩ := atMost_iff.1 hab
  obtain ⟨p, hp, hple⟩ := atMost_iff.1 hbc
  obtain ⟨q, hq⟩ := comparable_iff.1 (hS a c ha hc)
  refine atMost_iff.2 ⟨q, hq, ?_⟩
  rw [order?_trans a ho hp hq hole hple, Ordering.isLE_then_iff_and]
  exact ⟨hole, .inr hple⟩

theorem less_iff_not_atMost (ha : S a) (hb : S b) : a.less b = true ↔ ¬ b.AtMost a := by
  obtain ⟨o, hab, hba⟩ := exists_order? hS ha hb
  rw [less_iff, atMost_iff, hab, hba]
  cases o <;> simp

theorem greater_iff_not_atMost (ha : S a) (hb : S b) : a.greater b = true ↔ ¬ a.AtMost b := by
  obtain ⟨o, hab⟩ := comparable_iff.1 (hS a b ha hb)
  rw [greater_iff, atMost_iff, hab]
  cases o <;> simp

theorem atMost_of_equal (ha : S a) (hb : S b) (h : a.equal b = true) : b.AtMost a := by
  obtain ⟨o, hab, hba⟩ := exists_order? hS ha hb
  rw [order?_of_equal h] at hab
  obtain rfl := Option.some.inj hab
  exact atMost_iff.2 ⟨_, hba, rfl⟩

end

end Value

end PropertyGraph
