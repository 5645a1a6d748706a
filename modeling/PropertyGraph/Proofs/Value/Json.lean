import PropertyGraph.Proofs.Calendar.Iso
import PropertyGraph.Proofs.Except
import PropertyGraph.Proofs.Value.Key
import PropertyGraph.Value.Json

/-!
What the canonical tree of a value keeps of it: everything, except that a list and a tuple of the
same items have one tree. Mappings are left aside: one of them can stand for a date.
-/

namespace PropertyGraph.Value

mutual

/-- The value with lists in the place of all tuples. -/
def asLists : Value → Value
  | .tuple items => .list (allAsLists items)
  | .list items => .list (allAsLists items)
  | v => v

def allAsLists : List Value → List Value
  | [] => []
  | item :: rest => asLists item :: allAsLists rest

end

mutual

/-- No mapping occurs in the value. -/
def isPlain : Value → Bool
  | .dict _ => false
  | .tuple items => allPlain items
  | .list items => allPlain items
  | _ => true

def allPlain : List Value → Bool
  | [] => true
  | item :: rest => isPlain item && allPlain rest

end

/-- The elements of a tuple or a list. -/
def elements? : Value → Option (List Value)
  | .tuple items => some items
  | .list items => some items
  | _ => none

theorem toJsonItems_ok {style : JsonStyle} {items : List Value} {json : Json} {v : Value}
    (helements : v.elements? = some items) (h : v.toJson style = .ok json) :
    ∃ trees, toJsonItems style items = .ok trees ∧ json = .array trees := by
  cases v <;> cases helements
  all_goals
    rw [toJson] at h
    cases hitems : toJsonItems style items with
    | error e => rw [hitems] at h; cases h
    | ok trees =>
        rw [hitems] at h
        exact ⟨trees, rfl, (Except.ok.inj h).symm⟩

theorem toJsonItems_cons_ok {style : JsonStyle} {item : Value} {rest : List Value}
    {trees : List Json} (h : toJsonItems style (item :: rest) = .ok trees) :
    ∃ tree more, item.toJson style = .ok tree ∧ toJsonItems style rest = .ok more ∧
      trees = tree :: more := by
  rw [toJsonItems] at h
  cases hitem : item.toJson style with
  | error e => rw [hitem] at h; cases h
  | ok tree =>
      cases hrest : toJsonItems style rest with
      | error e => rw [hitem, hrest] at h; cases h
      | ok more =>
          rw [hitem, hrest] at h
          exact ⟨tree, more, rfl, rfl, (Except.ok.inj h).symm⟩

theorem writtenInt_eq_ok_iff {n m : Int} :
    writtenInt n = .ok m ↔ withinDigits n = true ∧ n = m := by
  unfold writtenInt
  split
  case isTrue h => simp [h]
  case isFalse h => simp [h]

theorem toJson_int_eq_ok_iff {style : JsonStyle} {n : Int} {json : Json} :
    (int n).toJson style = .ok json ↔ withinDigits n = true ∧ json = .int n := by
  rw [toJson]
  constructor
  · intro h
    obtain ⟨m, hm, h⟩ := exists_of_bind h
    obtain ⟨hwithin, rfl⟩ := writtenInt_eq_ok_iff.1 hm
    exact ⟨hwithin, (Except.ok.inj h).symm⟩
  · rintro ⟨hwithin, rfl⟩
    rw [writtenInt_eq_ok_iff.2 ⟨hwithin, rfl⟩]
    rfl

/-- The tree of a value without elements, whatever its digits are. -/
def atomTree? (style : JsonStyle) : Value → Option Json
  | .null => some .null
  | .bool b => some (.bool b)
  | .int n => some (.int n)
  | .float x => some (.float x)
  | .str s => some (.str s)
  | .date d => some (style.date (String.ofList d.iso))
  | .dateTime t => some (style.date (String.ofList t.iso))
  | _ => none

theorem atomTree?_of_toJson {style : JsonStyle} {v : Value} {json : Json} (hv : v.isAtom = true)
    (h : v.toJson style = .ok json) : v.atomTree? style = some json := by
  cases v with
  | int n => rw [(toJson_int_eq_ok_iff.1 h).2]; rfl
  | bytes data => cases h
  | tuple items => cases hv
  | list items => cases hv
  | dict entries => cases hv
  | _ => exact congrArg some (Except.ok.inj h)

/-- Values without elements have trees of their own. -/
theorem eq_of_toJson_of_isAtom {v w : Value} {json : Json} (hv : v.isAtom = true)
    (hw : w.isAtom = true) (hvJson : v.toJson .canonical = .ok json)
    (hwJson : w.toJson .canonical = .ok json) : v = w := by
  have hvTree := atomTree?_of_toJson hv hvJson
  have hwTree := atomTree?_of_toJson hw hwJson
  cases v <;> cases hv <;> cases hvTree <;> cases w <;> cases hw <;>
    simp only [atomTree?, JsonStyle.canonical, Option.some.injEq, reduceCtorEq, Json.bool.injEq,
      Json.int.injEq, Json.float.injEq, Json.str.injEq, Json.object.injEq, List.cons.injEq,
      Prod.mk.injEq, true_and, and_true] at hwTree
  -- Left are the values of one kind, and the dates and times, which are both written as texts.
  · rfl
  · rw [hwTree]
  · rw [hwTree]
  · rw [hwTree]
  · rw [hwTree]
  · rw [Date.iso_inj (String.ofList_injective hwTree)]
  · exact absurd (String.ofList_injective hwTree) (DateTime.iso_ne_date _ _)
  · exact absurd (String.ofList_injective hwTree).symm (DateTime.iso_ne_date _ _)
  · rw [DateTime.iso_inj (String.ofList_injective hwTree)]

theorem elements?_of_not_isAtom {v : Value} (hplain : v.isPlain = true)
    (hatom : v.isAtom = false) :
    ∃ items, v.elements? = some items ∧ v.asLists = .list (allAsLists items) ∧
      allPlain items = true := by
  cases v with
  | tuple items => exact ⟨items, rfl, rfl, hplain⟩
  | list items => exact ⟨items, rfl, rfl, hplain⟩
  | dict entries => cases hplain
  | _ => cases hatom

theorem toJson_ne_array {v : Value} (hatom : v.isAtom = true) {trees : List Json} :
    v.toJson .canonical ≠ .ok (.array trees) := by
  intro h
  have htree := atomTree?_of_toJson hatom h
  cases v <;> cases hatom <;> cases htree

mutual

/-- Values of one tree are the same but for lists that stand for tuples. -/
theorem asLists_eq_of_toJson : ∀ (v w : Value) {json : Json}, v.isPlain = true →
    w.isPlain = true → v.toJson .canonical = .ok json → w.toJson .canonical = .ok json →
      v.asLists = w.asLists
  | v, w, json, hv, hw, hvJson, hwJson => by
    -- What has elements shares its tree only with what has elements of the same trees.
    have hothers : ∀ trees, json = .array trees →
        ∃ others, w.asLists = .list (allAsLists others) ∧ allPlain others = true ∧
          toJsonItems .canonical others = .ok trees := by
      rintro trees rfl
      cases hatom : w.isAtom with
      | true => exact absurd hwJson (toJson_ne_array hatom)
      | false =>
          obtain ⟨others, helements, hlists, hplain⟩ := elements?_of_not_isAtom hw hatom
          obtain ⟨trees', hitems, htrees⟩ := toJsonItems_ok helements hwJson
          obtain rfl := Json.array.inj htrees
          exact ⟨others, hlists, hplain, hitems⟩
    cases v with
    | tuple items =>
        have helements : (tuple items).elements? = some items := rfl
        obtain ⟨trees, hitems, htrees⟩ := toJsonItems_ok helements hvJson
        obtain ⟨others, hlists, hplain, hwItems⟩ := hothers trees htrees
        rw [hlists, asLists, allAsLists_eq_of_toJsonItems items others hv hplain hitems hwItems]
    | list items =>
        have helements : (list items).elements? = some items := rfl
        obtain ⟨trees, hitems, htrees⟩ := toJsonItems_ok helements hvJson
        obtain ⟨others, hlists, hplain, hwItems⟩ := hothers trees htrees
        rw [hlists, asLists, allAsLists_eq_of_toJsonItems items others hv hplain hitems hwItems]
    | dict entries => cases hv
    | _ =>
        cases hatom : w.isAtom with
        | true => rw [eq_of_toJson_of_isAtom rfl hatom hvJson hwJson]
        | false =>
            obtain ⟨others, helements, -, -⟩ := elements?_of_not_isAtom hw hatom
            obtain ⟨trees, -, rfl⟩ := toJsonItems_ok helements hwJson
            exact absurd hvJson (toJson_ne_array rfl)

theorem allAsLists_eq_of_toJsonItems : ∀ (items others : List Value) {trees : List Json},
    allPlain items = true → allPlain others = true →
      toJsonItems .canonical items = .ok trees → toJsonItems .canonical others = .ok trees →
        allAsLists items = allAsLists others
  | [], [], _, _, _, _, _ => rfl
  | [], item :: others, _, _, _, hitems, hothers => by
    obtain ⟨tree, more, -, -, rfl⟩ := toJsonItems_cons_ok hothers
    cases hitems
  | item :: items, [], _, _, _, hitems, hothers => by
    obtain ⟨tree, more, -, -, rfl⟩ := toJsonItems_cons_ok hitems
    cases hothers
  | item :: items, other :: others, trees, hv, hw, hitems, hothers => by
    obtain ⟨tree, more, hitem, hrest, rfl⟩ := toJsonItems_cons_ok hitems
    obtain ⟨tree', more', hother, hrest', htrees⟩ := toJsonItems_cons_ok hothers
    obtain ⟨rfl, rfl⟩ := List.cons.inj htrees
    simp only [allPlain, Bool.and_eq_true] at hv hw
    rw [allAsLists, allAsLists, asLists_eq_of_toJson item other hv.1 hw.1 hitem hother,
      allAsLists_eq_of_toJsonItems items others hv.2 hw.2 hrest hrest']

end

end PropertyGraph.Value
