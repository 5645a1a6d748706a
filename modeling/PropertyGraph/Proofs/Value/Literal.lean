import PropertyGraph.Proofs.Value.Json

/-!
The values that literals of query texts stand for: truth values, numbers, texts, dates and times,
and tuples of such. Integers have no more digits than are written again. Lists do not occur in
literals, so their canonical trees keep all of them.
-/

namespace PropertyGraph.Value

mutual

/-- A literal can stand for the value. -/
def isLiteral : Value → Bool
  | .bool _ => true
  | .int n => withinDigits n
  | .float _ => true
  | .str _ => true
  | .date _ => true
  | .dateTime _ => true
  | .tuple items => allLiteral items
  | _ => false

def allLiteral : List Value → Bool
  | [] => true
  | item :: rest => isLiteral item && allLiteral rest

end

theorem allLiteral_iff {items : List Value} :
    allLiteral items = true ↔ ∀ item ∈ items, item.isLiteral = true := by
  induction items with
  | nil => simp [allLiteral]
  | cons item rest ih => simp [allLiteral, ih]

mutual

theorem isPlain_of_isLiteral : ∀ v : Value, v.isLiteral = true → v.isPlain = true
  | .tuple items, h => allPlain_of_allLiteral items h
  | .null, _ | .bool _, _ | .int _, _ | .float _, _ | .str _, _ | .date _, _ | .dateTime _, _
  | .bytes _, _ => rfl
  | .list _, h | .dict _, h => nomatch h

theorem allPlain_of_allLiteral : ∀ items : List Value,
    allLiteral items = true → allPlain items = true
  | [], _ => rfl
  | item :: rest, h => by
    rw [allLiteral, Bool.and_eq_true] at h
    rw [allPlain, isPlain_of_isLiteral item h.1, allPlain_of_allLiteral rest h.2]
    rfl

end

mutual

theorem exists_toJson_of_isLiteral (style : JsonStyle) : ∀ v : Value, v.isLiteral = true →
    ∃ json, v.toJson style = .ok json
  | .tuple items, h => by
    obtain ⟨trees, htrees⟩ := exists_toJsonItems_of_allLiteral style items h
    exact ⟨.array trees, by rw [toJson, htrees]; rfl⟩
  | .int _, h => ⟨_, toJson_int_eq_ok_iff.2 ⟨h, rfl⟩⟩
  | .bool _, _ | .float _, _ | .str _, _ | .date _, _ | .dateTime _, _ => ⟨_, rfl⟩
  | .null, h | .bytes _, h | .list _, h | .dict _, h => nomatch h

theorem exists_toJsonItems_of_allLiteral (style : JsonStyle) : ∀ items : List Value,
    allLiteral items = true → ∃ trees, toJsonItems style items = .ok trees
  | [], _ => ⟨[], rfl⟩
  | item :: rest, h => by
    rw [allLiteral, Bool.and_eq_true] at h
    obtain ⟨tree, htree⟩ := exists_toJson_of_isLiteral style item h.1
    obtain ⟨trees, htrees⟩ := exists_toJsonItems_of_allLiteral style rest h.2
    exact ⟨tree :: trees, by rw [toJsonItems, htree, htrees]; rfl⟩

end

mutual

/-- Literals have no lists in them that could stand for tuples. -/
theorem eq_of_asLists : ∀ v w : Value, v.isLiteral = true → w.isLiteral = true →
    v.asLists = w.asLists → v = w
  | .tuple items, w, hv, hw, h => by
    cases w with
    | tuple others =>
        rw [asLists, asLists, Value.list.injEq] at h
        rw [eq_of_allAsLists items others hv hw h]
    | list others => cases hw
    | _ => cases h
  | .bool _, w, _, hw, h | .int _, w, _, hw, h | .float _, w, _, hw, h | .str _, w, _, hw, h
  | .date _, w, _, hw, h | .dateTime _, w, _, hw, h => by
    cases w with
    | tuple others => cases h
    | list others => cases hw
    | _ => exact h
  | .null, _, hv, _, _ | .bytes _, _, hv, _, _ | .list _, _, hv, _, _ | .dict _, _, hv, _, _ =>
    nomatch hv

theorem eq_of_allAsLists : ∀ items others : List Value, allLiteral items = true →
    allLiteral others = true → allAsLists items = allAsLists others → items = others
  | [], [], _, _, _ => rfl
  | [], _ :: _, _, _, h => nomatch h
  | _ :: _, [], _, _, h => nomatch h
  | item :: items, other :: others, hv, hw, h => by
    rw [allLiteral, Bool.and_eq_true] at hv hw
    rw [allAsLists, allAsLists, List.cons.injEq] at h
    rw [eq_of_asLists item other hv.1 hw.1 h.1, eq_of_allAsLists items others hv.2 hw.2 h.2]

end

/-- Literals of one canonical tree are the same. -/
theorem eq_of_toJson_of_isLiteral {v w : Value} {json : Json} (hv : v.isLiteral = true)
    (hw : w.isLiteral = true) (hvJson : v.toJson .canonical = .ok json)
    (hwJson : w.toJson .canonical = .ok json) : v = w :=
  eq_of_asLists v w hv hw <| asLists_eq_of_toJson v w (isPlain_of_isLiteral v hv)
    (isPlain_of_isLiteral w hw) hvJson hwJson

end PropertyGraph.Value
