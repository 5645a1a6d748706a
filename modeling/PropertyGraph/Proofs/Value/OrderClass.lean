import PropertyGraph.Proofs.Value.Order

/-!
The classes of scalars. Two scalars have an order exactly if they are of one class, and then it is
known unless one of them is NaN.
-/

namespace PropertyGraph.Value

/-- Numbers with the truth values, texts, dates, local times, and instants. -/
inductive OrderClass where
  | number | text | day | localTime | instant
  deriving DecidableEq

/-- The class of a scalar; other values have none. -/
def orderClass? : Value → Option OrderClass
  | .bool _ | .int _ | .float _ => some .number
  | .str _ => some .text
  | .date _ => some .day
  | .dateTime t => some (if t.isAware then .instant else .localTime)
  | .null | .bytes _ | .tuple _ | .list _ | .dict _ => none

def isNaN : Value → Bool
  | .float x => x.isNaN
  | _ => false

variable {a b : Value} {c d : OrderClass}

theorem isNull_of_orderClass? (h : a.orderClass? = some c) : a.isNull = false := by
  cases a <;> first | rfl | cases h

theorem orderClass?_dateTime (t : DateTime) :
    (dateTime t).orderClass? = some .instant ∧ t.isAware = true ∨
      (dateTime t).orderClass? = some .localTime ∧ t.isAware = false := by
  cases h : t.isAware <;> simp [orderClass?, h]

/-- A scalar of the class of numbers compares as a number, which has a place unless it is NaN. -/
theorem exists_numeric? (h : a.orderClass? = some .number) :
    ∃ n, a.numeric? = some n ∧ (a.isNaN = false → n.place?.isSome = true) := by
  cases a with
  | bool b => exact ⟨_, rfl, fun _ => rfl⟩
  | int n => exact ⟨_, rfl, fun _ => rfl⟩
  | float x => exact ⟨_, rfl, fun hx => Double.place?_isSome_iff.2 (by rintro rfl; cases hx)⟩
  | dateTime t => rcases orderClass?_dateTime t with ⟨ht, -⟩ | ⟨ht, -⟩ <;> rw [ht] at h <;> cases h
  | _ => cases h

theorem orderClass?_eq_text_iff : a.orderClass? = some .text ↔ ∃ s, a = .str s := by
  cases a with
  | dateTime t => rcases orderClass?_dateTime t with ⟨ht, -⟩ | ⟨ht, -⟩ <;> simp [ht]
  | _ => simp [orderClass?]

theorem orderClass?_eq_day_iff : a.orderClass? = some .day ↔ ∃ d, a = .date d := by
  cases a with
  | dateTime t => rcases orderClass?_dateTime t with ⟨ht, -⟩ | ⟨ht, -⟩ <;> simp [ht]
  | _ => simp [orderClass?]

theorem orderClass?_eq_localTime_iff :
    a.orderClass? = some .localTime ↔ ∃ t, a = .dateTime t ∧ t.isAware = false := by
  cases a with
  | dateTime t => rcases orderClass?_dateTime t with ⟨ht, h⟩ | ⟨ht, h⟩ <;> simp [ht, h]
  | _ => simp [orderClass?]

theorem orderClass?_eq_instant_iff :
    a.orderClass? = some .instant ↔ ∃ t, a = .dateTime t ∧ t.isAware = true := by
  cases a with
  | dateTime t => rcases orderClass?_dateTime t with ⟨ht, h⟩ | ⟨ht, h⟩ <;> simp [ht, h]
  | _ => simp [orderClass?]

theorem relate_dateTime (t u : DateTime) :
    (dateTime t).relate (dateTime u) =
      if t.isAware = u.isAware then .ok (some (compare t.instant u.instant))
      else .error .localWithInstant := by
  show (if (t.isAware == u.isAware) = true then _ else _) = _
  simp only [beq_iff_eq]

/-- Scalars have an order exactly if they are of one class. -/
theorem relate_isOk_iff (ha : a.orderClass? = some c) (hb : b.orderClass? = some d) :
    (∃ o?, a.relate b = .ok o?) ↔ c = d := by
  cases a <;> cases ha <;> cases b <;> cases hb
  case dateTime.refl.dateTime.refl t u =>
    cases ht : t.isAware <;> cases hu : u.isAware <;> simp [relate_dateTime, ht, hu]
  all_goals simp [relate, relateScalars, numeric?, number?]
  all_goals split <;> (intro h; cases h)

/-- Times are comparable if both have an offset or neither has. -/
theorem comparable_dateTime {t u : DateTime} (h : t.isAware = u.isAware) :
    (dateTime t).Comparable (dateTime u) :=
  comparable_iff.2 ⟨_, order?_of_relate ((relate_dateTime t u).trans (if_pos h))⟩

/-- Scalars of one class, none of them NaN, are comparable. -/
theorem comparable_of_orderClass? (ha : a.orderClass? = some c) (hb : b.orderClass? = some c)
    (hna : a.isNaN = false) (hnb : b.isNaN = false) : a.Comparable b := by
  cases c with
  | number =>
      obtain ⟨m, hm, hplace⟩ := exists_numeric? ha
      obtain ⟨n, hn, hplace'⟩ := exists_numeric? hb
      exact comparable_of_numeric? hm hn (hplace hna) (hplace' hnb)
  | text =>
      obtain ⟨s, rfl⟩ := orderClass?_eq_text_iff.1 ha
      obtain ⟨t, rfl⟩ := orderClass?_eq_text_iff.1 hb
      exact comparable_str s t
  | day =>
      obtain ⟨d, rfl⟩ := orderClass?_eq_day_iff.1 ha
      obtain ⟨e, rfl⟩ := orderClass?_eq_day_iff.1 hb
      exact comparable_date d e
  | localTime =>
      obtain ⟨t, rfl, ht⟩ := orderClass?_eq_localTime_iff.1 ha
      obtain ⟨u, rfl, hu⟩ := orderClass?_eq_localTime_iff.1 hb
      exact comparable_dateTime (ht.trans hu.symm)
  | instant =>
      obtain ⟨t, rfl, ht⟩ := orderClass?_eq_instant_iff.1 ha
      obtain ⟨u, rfl, hu⟩ := orderClass?_eq_instant_iff.1 hb
      exact comparable_dateTime (ht.trans hu.symm)

end PropertyGraph.Value
