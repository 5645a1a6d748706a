import PropertyGraph.Engine.Basic
import PropertyGraph.Proofs.Except
import PropertyGraph.Proofs.Number.Difference
import PropertyGraph.Proofs.Text.Case

/-!
The ranges of settings. A document is accepted if its settings convert and none is out of its range;
then depth, limit and threshold are in theirs, in whatever form they were written. The lifetime of
answers is only checked not to be below zero, which NaN is not: NaN is the one lifetime out of range
that is accepted, and answers never expire under it.
-/

namespace PropertyGraph

namespace Double

theorem lt_iff_number {x y : Double} : x < y ↔ Number.float x < Number.float y := Iff.rfl

theorem ofInt_ne_nan (n : Int) : ofInt n ≠ nan := by
  unfold ofInt ofRatio
  exact ofUnits_ne_nan _ _

end Double

namespace Number

theorem lt_congr {a b c d : Number} (hac : a.place? = c.place?) (hbd : b.place? = d.place?) :
    a < b ↔ c < d := by
  rw [lt_iff, lt_iff, hac, hbd]

theorem place?_zero : (float .zero).place? = (int 0).place? := by decide +kernel

theorem place?_one : (float (.ofInt 1)).place? = (int 1).place? := by decide +kernel

theorem place?_neg_one : (float (Double.ofInt 1).neg).place? = (int (-1)).place? := by
  decide +kernel

theorem not_nan_lt (a : Number) : ¬ float .nan < a := by
  intro h
  obtain ⟨x, -, hx, -⟩ := lt_iff.1 h
  cases hx

theorem not_le_nan (a : Number) : ¬ a ≤ float .nan := by
  intro h
  obtain ⟨-, y, -, hy, -⟩ := le_iff.1 h
  cases hy

/-- Above a finite number there are integers. -/
theorem exists_int_gt {x : Double} (h : x.isFinite = true) : ∃ n : Int, float x < int n := by
  obtain ⟨m, hm⟩ := Double.exists_point_of_isFinite h
  refine ⟨m.natAbs + 1, lt_iff.2 ⟨_, _, hm, rfl, ?_⟩⟩
  have hunits : (1 : Int) ≤ unitsPerOne := by decide +kernel
  refine Int.compare_eq_lt.2 ?_
  generalize (unitsPerOne : Int) = units at hunits
  have hle : m ≤ m.natAbs := Int.le_natAbs
  have hscaled : m.natAbs * 1 ≤ m.natAbs * units :=
    Int.mul_le_mul_of_nonneg_left hunits (Int.natCast_nonneg _)
  rw [Int.add_mul]
  omega

end Number

/-- The value converts to NaN: it is that number, or characters that spell it. -/
def Value.spellsNaN : Value → Prop
  | .float x => x = .nan
  | .str s => Numeral.double s.toList = some .nan
  | .bytes data => Numeral.double (spelled data) = some .nan
  | _ => False

theorem Value.toDouble_eq_nan_iff {v : Value} : v.toDouble = .ok .nan ↔ v.spellsNaN := by
  have hint (n : Int) : (Number.int n).toDouble.mapError SettingsError.arithmetic ≠ .ok .nan := by
    rw [Ne, mapError_eq_ok_iff]
    unfold Number.toDouble
    dsimp only
    split
    · simp [Double.ofInt_ne_nan]
    · exact nofun
  cases v with
  | str s =>
      unfold toDouble spellsNaN
      dsimp only
      cases Numeral.double s.toList <;> simp
  | bytes data =>
      unfold toDouble spellsNaN
      dsimp only
      cases Numeral.double (spelled data) <;> simp
  | int n => exact iff_of_false (hint n) id
  | bool b => exact iff_of_false (hint b.toNat) id
  | float x =>
      show Except.ok x = .ok .nan ↔ x = .nan
      simp
  | _ => exact iff_of_false nofun id

/-- The name of a level counts as the text it was given as, in whatever case. -/
theorem logLevelNumber_levelName (v : Value) :
    logLevelNumber (Settings.levelName v) = logLevelNumber (String.ofList v.plain) := by
  simp only [logLevelNumber, Settings.levelName, String.toList_ofList, Text.upper_upper]

namespace Settings

theorem lifetime_check_iff {x : Double} : x < .zero ↔ Number.float x < .int 0 := by
  rw [Double.lt_iff_number]
  exact Number.lt_congr rfl Number.place?_zero

/-- The check of the threshold fails for NaN, as it is written. -/
theorem threshold_check_iff {x : Double} :
    (!x.isNaN && !decide (x < (Double.ofInt 1).neg) && !decide (.ofInt 1 < x)) = true ↔
      Number.int (-1) ≤ .float x ∧ Number.float x ≤ .int 1 := by
  by_cases hnan : x = .nan
  · subst hnan
    exact iff_of_false (by simp [Double.isNaN]) fun h => Number.not_le_nan _ h.1
  · have hx : (Number.float x).place?.isSome = true := by
      rw [Number.place?_isSome_iff]
      exact fun h => hnan (Number.float.inj h)
    have hisNaN : x.isNaN = false := by cases x <;> first | rfl | exact absurd rfl hnan
    have hbelow : ¬ x < (Double.ofInt 1).neg ↔ Number.int (-1) ≤ .float x := by
      rw [Double.lt_iff_number, Number.lt_congr rfl Number.place?_neg_one]
      exact Number.not_lt_iff_le hx rfl
    have habove : ¬ Double.ofInt 1 < x ↔ Number.float x ≤ .int 1 := by
      rw [Double.lt_iff_number, Number.lt_congr Number.place?_one rfl]
      exact Number.not_lt_iff_le rfl hx
    rw [hisNaN, ← hbelow, ← habove, Bool.and_eq_true, Bool.and_eq_true]
    simp only [Bool.not_false, Bool.not_eq_true', decide_eq_false_iff_not, true_and]

theorem outOfRange?_eq_none_iff {s : Settings} :
    s.outOfRange? = none ↔
      ¬ Number.float s.cacheLifetime < .int 0 ∧ 0 ≤ s.maxDepth ∧ 0 ≤ s.vectorLimit ∧
        Number.int (-1) ≤ .float s.vectorThreshold ∧ Number.float s.vectorThreshold ≤ .int 1 := by
  rw [← lifetime_check_iff, ← threshold_check_iff]
  unfold outOfRange?
  dsimp only
  split_ifs with hlifetime hdepth hlimit hthreshold
  · exact iff_of_false nofun fun h => h.1 (of_decide_eq_true hlifetime)
  · exact iff_of_false nofun fun h => Int.not_le.2 hdepth h.2.1
  · exact iff_of_false nofun fun h => Int.not_le.2 hlimit h.2.2.1
  · refine iff_of_false nofun fun h => ?_
    rw [h.2.2.2] at hthreshold
    cases hthreshold
  · refine iff_of_true rfl ⟨fun h => hlifetime (decide_eq_true h), Int.not_lt.1 hdepth,
      Int.not_lt.1 hlimit, ?_⟩
    simpa only [Bool.not_eq_true, Bool.not_eq_false'] using hthreshold

/-- A document is accepted if its settings convert and none is out of its range. -/
theorem ofDocument_eq_ok_iff {document : List (Value × Value)} {s : Settings} :
    ofDocument document = .ok s ↔ convert document = .ok s ∧ s.outOfRange? = none := by
  unfold ofDocument
  cases convert document with
  | error e => exact iff_of_false nofun nofun
  | ok found =>
      simp only [bind, Except.bind]
      constructor
      · intro h
        cases hrange : found.outOfRange? with
        | none =>
            rw [hrange] at h
            obtain rfl := Except.ok.inj h
            exact ⟨rfl, hrange⟩
        | some e =>
            rw [hrange] at h
            cases h
      · rintro ⟨hfound, hrange⟩
        obtain rfl := Except.ok.inj hfound
        rw [hrange]
        rfl

/-- The lifetime is given, and it converts to NaN. -/
def GivesNaN (document : List (Value × Value)) : Prop :=
  ∃ entries v, sectionOf document "cache" = .dict entries ∧
    Value.field? entries "ttl_seconds" = some v ∧ v.spellsNaN

theorem setting_toDouble_eq_nan_iff {part : Value} {name : String} {default : Double}
    (hdefault : default ≠ .nan) :
    setting part name default Value.toDouble = .ok .nan ↔
      ∃ entries v, part = .dict entries ∧ Value.field? entries name = some v ∧ v.spellsNaN := by
  cases part with
  | dict entries =>
      unfold setting
      dsimp only
      cases hfield : Value.field? entries name with
      | none =>
          refine iff_of_false (fun h => hdefault (Except.ok.inj h)) ?_
          rintro ⟨_, v, hentries, hv, -⟩
          obtain rfl := Value.dict.inj hentries
          rw [hfield] at hv
          cases hv
      | some v =>
          rw [Option.elim_some, Value.toDouble_eq_nan_iff]
          constructor
          · exact fun h => ⟨entries, v, rfl, hfield, h⟩
          · rintro ⟨_, w, hentries, hw, hnan⟩
            obtain rfl := Value.dict.inj hentries
            obtain rfl := Option.some.inj (hfield.symm.trans hw)
            exact hnan
  | _ =>
      refine iff_of_false nofun ?_
      rintro ⟨entries, v, hentries, -⟩
      cases hentries

/-- What the lifetime is converted from is all that makes it NaN; the default is a number. -/
theorem lifetime_eq_nan_iff {document : List (Value × Value)} {s : Settings}
    (h : convert document = .ok s) : s.cacheLifetime = .nan ↔ GivesNaN document := by
  obtain ⟨enabled, -, h⟩ := exists_of_bind h
  obtain ⟨lifetime, hlifetime, h⟩ := exists_of_bind h
  obtain ⟨replace, -, h⟩ := exists_of_bind h
  obtain ⟨depth, -, h⟩ := exists_of_bind h
  obtain ⟨limit, -, h⟩ := exists_of_bind h
  obtain ⟨threshold, -, h⟩ := exists_of_bind h
  obtain ⟨level, -, h⟩ := exists_of_bind h
  obtain rfl := Except.ok.inj h
  rw [GivesNaN, ← setting_toDouble_eq_nan_iff (Double.ofInt_ne_nan 300), hlifetime]
  exact Except.ok.injEq _ _ ▸ Iff.rfl

theorem lifetime_nonneg_iff {document : List (Value × Value)} {s : Settings}
    (h : ofDocument document = .ok s) :
    Number.int 0 ≤ .float s.cacheLifetime ↔ ¬ GivesNaN document := by
  obtain ⟨hconvert, hrange⟩ := ofDocument_eq_ok_iff.1 h
  rw [← lifetime_eq_nan_iff hconvert]
  constructor
  · intro hle hnan
    rw [hnan] at hle
    exact Number.not_le_nan _ hle
  · intro hnan
    have hplace : (Number.float s.cacheLifetime).place?.isSome = true := by
      rw [Number.place?_isSome_iff]
      exact fun h => hnan (Number.float.inj h)
    exact (Number.not_lt_iff_le hplace rfl).1 (outOfRange?_eq_none_iff.1 hrange).1

/-- Accepted settings are in their ranges, but for a lifetime that the document gives as NaN. An
answer kept for the lifetime is expired once its age reaches a bound above the lifetime, and there
are such bounds if the lifetime is finite; under NaN no answer ever expires. -/
theorem ranges_of_ofDocument {document : List (Value × Value)} {s : Settings}
    (h : ofDocument document = .ok s) :
    (0 ≤ s.maxDepth ∧ 0 ≤ s.vectorLimit ∧
        Number.int (-1) ≤ .float s.vectorThreshold ∧ Number.float s.vectorThreshold ≤ .int 1) ∧
      (Number.int 0 ≤ .float s.cacheLifetime ↔ ¬ GivesNaN document) ∧
      (s.cacheLifetime.isFinite = true → ∃ n : Int, Number.float s.cacheLifetime < .int n) ∧
      ∀ (entry : CacheEntry Number Answer) (now : Number),
        entry.lifetime = (Engine.start s).cache.lifetime →
          (∀ bound, Number.float s.cacheLifetime < bound → bound ≤ now - entry.stored →
            entry.isExpired now = true) ∧
          (GivesNaN document → entry.isExpired now = false) := by
  obtain ⟨hconvert, hrange⟩ := ofDocument_eq_ok_iff.1 h
  refine ⟨(outOfRange?_eq_none_iff.1 hrange).2, lifetime_nonneg_iff h, Number.exists_int_gt, ?_⟩
  intro entry now hlifetime
  have hentry : entry.lifetime = .float s.cacheLifetime := hlifetime
  unfold CacheEntry.isExpired
  rw [hentry, decide_eq_true_iff, decide_eq_false_iff_not]
  refine ⟨fun bound hbound hage => Number.lt_of_lt_of_le hbound hage, fun hnan => ?_⟩
  rw [(lifetime_eq_nan_iff hconvert).2 hnan]
  exact Number.not_nan_lt _

/-- Settings in various written forms: a lifetime as text, a depth with a fraction, a limit as text
with blanks and a truth value as threshold. -/
theorem ranges_of_written_forms :
    let document : List (Value × Value) := [
      (.str "cache", .dict [(.str "ttl_seconds", .str "1e3")]),
      (.str "traversal", .dict [(.str "max_depth", .float (.ofDecimal false 29 (-1)))]),
      (.str "vector_search", .dict [(.str "limit", .str " 7 "), (.str "threshold", .bool true)])]
    ∃ s, ofDocument document = .ok s ∧ s.maxDepth = 2 ∧ s.vectorLimit = 7 ∧
      Number.float s.vectorThreshold ≤ .int 1 ∧ Number.int 0 ≤ .float s.cacheLifetime ∧
      ∀ answer : Answer,
        CacheEntry.isExpired ⟨answer, .float s.cacheLifetime, .int 0⟩ (Number.int 1001) = true := by
  intro document
  have hread : (ofDocument document).toOption.map (fun s => (s.maxDepth, s.vectorLimit,
      decide (Number.float s.cacheLifetime < .int 1001))) = some (2, 7, true) := by
    decide +kernel
  have hnumber : ¬ GivesNaN document := by
    rintro ⟨entries, v, hentries, hv, hnan⟩
    obtain rfl := Value.dict.inj hentries
    obtain rfl : Value.str "1e3" = v := Option.some.inj hv
    have hdouble : Numeral.double "1e3".toList ≠ some .nan := by decide +kernel
    exact hdouble hnan
  cases hs : ofDocument document with
  | error e =>
      rw [hs] at hread
      cases hread
  | ok s =>
      rw [hs] at hread
      simp only [Except.toOption, Option.map_some, Option.some.injEq, Prod.mk.injEq,
        decide_eq_true_iff] at hread
      obtain ⟨hdepth, hlimit, hbound⟩ := hread
      have hranges := ranges_of_ofDocument hs
      have hage : Number.int 1001 ≤ Number.int 1001 - .int 0 := by decide
      refine ⟨s, rfl, hdepth, hlimit, hranges.1.2.2.2, hranges.2.1.2 hnumber, fun answer => ?_⟩
      exact (hranges.2.2.2 ⟨answer, .float s.cacheLifetime, .int 0⟩ (.int 1001) rfl).1 (.int 1001)
        hbound hage

/-- A lifetime that is NaN is accepted. -/
theorem nan_lifetime_accepted :
    ¬ ∀ (document : List (Value × Value)) (s : Settings), ofDocument document = .ok s →
      Number.int 0 ≤ .float s.cacheLifetime := by
  intro h
  have hread : (ofDocument [(.str "cache", .dict [(.str "ttl_seconds", .float .nan)])]).toOption.map
      (·.cacheLifetime) = some .nan := by
    decide +kernel
  cases hs : ofDocument [(.str "cache", .dict [(.str "ttl_seconds", .float .nan)])] with
  | error e =>
      rw [hs] at hread
      cases hread
  | ok s =>
      rw [hs] at hread
      have hnonneg := h _ s hs
      obtain hnan : s.cacheLifetime = .nan := Option.some.inj hread
      rw [hnan] at hnonneg
      exact Number.not_le_nan _ hnonneg

end Settings

end PropertyGraph
