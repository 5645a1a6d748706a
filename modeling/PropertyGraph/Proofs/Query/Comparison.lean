import PropertyGraph.Proofs.Value.Order
import PropertyGraph.Query.Comparison

/-!
The six comparisons of a property with a value. At most one of less, equal and greater holds, and
unequal is the negation of equal. What is greater or equal is greater or is equal, and likewise for
less, unless equality and order take different views of the pair: only equality keeps truth values
apart from the numbers they count as.
-/

namespace PropertyGraph

namespace Value

/-- Values of some kinds are equal or not, but not in order. -/
def hasOrder : Value → Bool
  | .null | .dict _ => false
  | _ => true

/-- The values are equal, but equality or order does not show it: one of them is a truth value and
the other the number that it counts as, or they are of a kind without order. -/
def Discordant (a b : Value) : Prop :=
  a.equal b = true ∧ (a.isBool ≠ b.isBool ∨ a.hasOrder = false)

instance (a b : Value) : Decidable (a.Discordant b) := inferInstanceAs (Decidable (_ ∧ _))

variable {a b : Value}

theorem hasOrder_of_relate {o? : Option Ordering} (h : a.relate b = .ok o?) :
    a.hasOrder = true := by
  cases a with
  | null => cases b <;> cases h
  | dict => cases b <;> cases h
  | _ => rfl

/-- Equal values without elements are in order as equals, null apart. -/
theorem relate_of_equal_of_isAtom (ha : a.isAtom = true) (hnull : a ≠ .null)
    (h : a.equal b = true) : a.relate b = .ok (some .eq) := by
  obtain ⟨k, hk⟩ := exists_atomKey ha
  have hl : b.elementKey? = some (.atom k) := ((equal_iff_of_isAtom ha hk).1 h).2
  have hnan : k ≠ .nan := ((equal_iff_key ha hk hl).1 h).1
  have hb : b.isAtom = true := isAtom_of_order? ha (order?_of_equal h)
  rw [relate_eq_relateScalars ha, ← toOption_join_eq_some_iff,
    relateScalars_eq_order? ha hb hk hl hnull, AtomKey.order?_self hnan]

theorem relateItems_of_equalItems {as bs : List Value} (h : equalItems as bs = true) :
    relateItems as bs = .ok (some .eq) := by
  induction as generalizing bs with
  | nil =>
      cases bs with
      | nil => rfl
      | cons b bs => cases h
  | cons a as ih =>
      cases bs with
      | nil => cases h
      | cons b bs =>
          rw [equalItems, Bool.and_eq_true] at h
          rw [relateItems, if_pos h.1]
          exact ih h.2

/-- Values are in order as equals exactly if they are equal and of a kind that has an order. -/
theorem relate_eq_ok_eq_iff :
    a.relate b = .ok (some .eq) ↔ a.equal b = true ∧ a.hasOrder = true := by
  constructor
  · exact fun h => ⟨(relate_eq_iff a b h).1 rfl, hasOrder_of_relate h⟩
  · rintro ⟨hequal, horder⟩
    cases a with
    | null | dict => cases horder
    | tuple as | list as =>
        cases b <;> first | exact relateItems_of_equalItems hequal | cases hequal
    | _ => exact relate_of_equal_of_isAtom rfl nofun hequal

/-- Only values that have an order equal a value of another kind. -/
theorem isBool_eq_of_not_hasOrder (h : a.equal b = true) (ha : a.hasOrder = false) :
    a.isBool = b.isBool := by
  cases a with
  | null | dict => cases b <;> first | rfl | cases h
  | _ => cases ha

end Value

/-- No two operators have one mark, and plain equality alone has none. -/
theorem ComparisonOp.marker_injective : Function.Injective ComparisonOp.marker := by
  intro a b h
  cases a <;> cases b <;> first | rfl | exact absurd h (by decide)

namespace Comparison

variable {a v : Value}

theorem holds_eq_iff :
    (mk .eq v).holds (some a) = true ↔ a.equal v = true ∧ a.isBool = v.isBool := by
  show (a.isBool == v.isBool && a.equal v) = true ↔ _
  rw [Bool.and_eq_true, beq_iff_eq, and_comm]

theorem holds_ne_iff :
    (mk .ne v).holds (some a) = true ↔ ¬ (mk .eq v).holds (some a) = true := by
  show (!a.same v) = true ↔ ¬ a.same v = true
  rw [Bool.not_eq_true', Bool.not_eq_true]

theorem holds_gt_iff : (mk .gt v).holds (some a) = true ↔ a.relate v = .ok (some .gt) := by
  show a.greater v = true ↔ _
  rw [Value.greater]
  split <;> simp_all

theorem holds_lt_iff : (mk .lt v).holds (some a) = true ↔ a.relate v = .ok (some .lt) := by
  show a.less v = true ↔ _
  rw [Value.less]
  split <;> simp_all

theorem holds_gte_iff : (mk .gte v).holds (some a) = true ↔
    (mk .gt v).holds (some a) = true ∨ a.equal v = true ∧ a.hasOrder = true := by
  rw [holds_gt_iff, ← Value.relate_eq_ok_eq_iff, holds_some, holdsOf]
  rcases a.relate v with _ | _ | _ | _ | _ <;> simp

theorem holds_lte_iff : (mk .lte v).holds (some a) = true ↔
    (mk .lt v).holds (some a) = true ∨ a.equal v = true ∧ a.hasOrder = true := by
  rw [holds_lt_iff, ← Value.relate_eq_ok_eq_iff, holds_some, holdsOf]
  rcases a.relate v with _ | _ | _ | _ | _ <;> simp

/-- Unequal values are the only ones that are less or greater. -/
theorem not_equal_of_strict {o : Ordering} (ho : o ≠ .eq) (h : a.relate v = .ok (some o)) :
    ¬ a.equal v = true :=
  fun hequal => ho ((Value.relate_eq_iff a v h).2 hequal)

/-- Order with equality is strict order or equality, unless the pair is one of which the two take
different views. -/
theorem coherent_iff {weak strict : Prop}
    (hweak : weak ↔ strict ∨ a.equal v = true ∧ a.hasOrder = true)
    (hstrict : strict → ¬ a.equal v = true) :
    (weak ↔ strict ∨ (mk .eq v).holds (some a) = true) ↔ ¬ a.Discordant v := by
  rw [hweak, holds_eq_iff, Value.Discordant]
  cases hequal : a.equal v with
  | false => simp
  | true =>
      have hnot : ¬ strict := fun h => hstrict h hequal
      cases horder : a.hasOrder with
      | true => simp [hnot]
      | false => simp [hnot, Value.isBool_eq_of_not_hasOrder hequal horder]

/-- A truth value and the number that it counts as are in order as equals. -/
theorem hasOrder_of_isBool_ne (h : a.equal v = true) (hbool : a.isBool ≠ v.isBool) :
    a.hasOrder = true := by
  rw [← Bool.not_eq_false]
  exact fun horder => hbool (Value.isBool_eq_of_not_hasOrder h horder)

/-- A property that is present meets at most one of less, equal and greater, and unequal exactly if
not equal. It is greater or equal exactly if it is greater or equal to the value, and likewise for
less, for all pairs but discordant ones. Those of a truth value and a number are greater or equal and
less or equal, and nothing else. -/
theorem operators_coherent (a v : Value) :
    let holds (op : ComparisonOp) : Prop := (mk op v).holds (some a) = true
    ((holds .gte ↔ holds .gt ∨ holds .eq) ↔ ¬ a.Discordant v) ∧
      ((holds .lte ↔ holds .lt ∨ holds .eq) ↔ ¬ a.Discordant v) ∧
      (holds .ne ↔ ¬ holds .eq) ∧
      ¬ (holds .lt ∧ holds .eq) ∧ ¬ (holds .eq ∧ holds .gt) ∧ ¬ (holds .lt ∧ holds .gt) ∧
      (a.equal v = true ∧ a.isBool ≠ v.isBool →
        holds .gte ∧ holds .lte ∧ ¬ holds .lt ∧ ¬ holds .eq ∧ ¬ holds .gt) := by
  intro holds
  have hgt (h : holds .gt) : ¬ a.equal v = true := not_equal_of_strict (by decide) (holds_gt_iff.1 h)
  have hlt (h : holds .lt) : ¬ a.equal v = true := not_equal_of_strict (by decide) (holds_lt_iff.1 h)
  have heq (h : holds .eq) : a.equal v = true := (holds_eq_iff.1 h).1
  refine ⟨coherent_iff holds_gte_iff hgt, coherent_iff holds_lte_iff hlt, holds_ne_iff,
    fun ⟨hl, he⟩ => hlt hl (heq he), fun ⟨he, hg⟩ => hgt hg (heq he), fun ⟨hl, hg⟩ => ?_,
    fun ⟨hequal, hbool⟩ => ?_⟩
  · cases (holds_lt_iff.1 hl).symm.trans (holds_gt_iff.1 hg)
  · have horder := hasOrder_of_isBool_ne hequal hbool
    exact ⟨holds_gte_iff.2 (.inr ⟨hequal, horder⟩), holds_lte_iff.2 (.inr ⟨hequal, horder⟩),
      fun h => hlt h hequal, fun h => hbool (holds_eq_iff.1 h).2, fun h => hgt h hequal⟩

/-- A truth value is in order with the number that it counts as, but not equal to it. -/
theorem operators_of_truth_value :
    let holds (op : ComparisonOp) : Prop := (mk op (.int 1)).holds (some (.bool true)) = true
    holds .gte ∧ holds .lte ∧ ¬ (holds .gt ∨ holds .eq) ∧ ¬ (holds .lt ∨ holds .eq) := by
  decide

end Comparison

end PropertyGraph
