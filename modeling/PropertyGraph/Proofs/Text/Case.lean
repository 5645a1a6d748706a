import PropertyGraph.Text.Case

/-!
Texts in capital letters. What a letter becomes is never a letter that has another capital form, so
that a text put in capital letters is its own capital form.
-/

namespace PropertyGraph.Text

/-- The character is its own capital form. -/
def IsCapital (c : Char) : Prop := upperChar c = [c]

instance (c : Char) : Decidable (IsCapital c) := inferInstanceAs (Decidable (_ = _))

namespace CaseRun

/-- The code point is one of the letters of the run. -/
def Holds (run : CaseRun) (n : Nat) : Prop :=
  run.first ≤ n ∧ n ≤ run.last ∧ (n - run.first) % run.step = 0

/-- No image of a letter of `run` is a letter of `other`: they lie in different ranges, or `other`
takes every second code point and the images are among those between. -/
def avoids (run other : CaseRun) : Bool :=
  Nat.blt (run.target + (run.last - run.first)) other.first || Nat.blt other.last run.target ||
    (run.step == 2 || run.first == run.last) && other.step == 2 &&
      (run.target + other.first) % 2 == 1

theorem Holds.not_image {run other : CaseRun} (h : run.avoids other = true) {n : Nat}
    (hn : run.Holds n) : ¬other.Holds (run.target + (n - run.first)) := by
  obtain ⟨hfirst, hlast, hstep⟩ := hn
  rintro ⟨hfirst', hlast', hstep'⟩
  simp only [avoids, Nat.blt_eq, Bool.or_eq_true, Bool.and_eq_true, beq_iff_eq] at h
  rcases h with (hbelow | habove) | ⟨⟨heven, htwo⟩, hodd⟩
  · omega
  · omega
  · have hdistance : (n - run.first) % 2 = 0 := by
      rcases heven with htwo | hsingle
      · rwa [htwo] at hstep
      · omega
    rw [htwo] at hstep'
    omega

end CaseRun

theorem mapByRuns_cases (runs : List CaseRun) (n : Nat) :
    (∀ run ∈ runs, ¬run.Holds n) ∧ mapByRuns runs n = n ∨
      ∃ run ∈ runs, run.Holds n ∧ mapByRuns runs n = run.target + (n - run.first) := by
  unfold mapByRuns
  split
  · next run hfound =>
    have hholds := List.find?_some hfound
    simp only [Bool.and_eq_true, decide_eq_true_eq, beq_iff_eq, and_assoc] at hholds
    exact .inr ⟨run, List.mem_of_find?_eq_some hfound, hholds, rfl⟩
  · next hnone =>
    refine .inl ⟨fun run hrun hholds => ?_, rfl⟩
    have hapart := List.find?_eq_none.1 hnone run hrun
    simp only [Bool.and_eq_true, decide_eq_true_eq, beq_iff_eq, and_assoc] at hapart
    exact hapart hholds

-- The tables are compared run by run. Letter by letter they are too long to be evaluated.
theorem upperRuns_avoid : ∀ run ∈ upperRuns, ∀ other ∈ upperRuns, run.avoids other = true := by
  have h : (upperRuns.all fun run => upperRuns.all run.avoids) = true := by decide +kernel
  simpa only [List.all_eq_true] using h

theorem upperRuns_avoid_expansions : ∀ run ∈ upperRuns, ∀ entry ∈ upperExpansions,
    run.avoids ⟨entry.1, entry.1, 1, 0⟩ = true := by
  have h : (upperRuns.all fun run => upperExpansions.all fun entry =>
    run.avoids ⟨entry.1, entry.1, 1, 0⟩) = true := by decide +kernel
  simpa only [List.all_eq_true] using h

/-- A letter outside ASCII that becomes one of ASCII stands in a run of its own. -/
theorem single_of_target_lt : ∀ run ∈ upperRuns, run.target < 128 →
    run.first = run.last ∧ IsCapital (Char.ofNat run.target) := by
  decide +kernel

theorem isCapital_of_expansion : ∀ entry ∈ upperExpansions, ∀ n ∈ entry.2,
    IsCapital (Char.ofNat n) := by
  decide +kernel

theorem isCapital_toUpper : ∀ n < 128, IsCapital (Char.ofNat n).toUpper := by
  decide +kernel

theorem isCapital_of_not_holds {n : Nat} (hascii : ¬n < 128)
    (hexpansions : upperExpansions.lookup n = none) (hruns : ∀ run ∈ upperRuns, ¬run.Holds n) :
    IsCapital (Char.ofNat n) := by
  by_cases hvalid : n.isValidChar
  · have hn : (Char.ofNat n).toNat = n := by
      rw [Char.ofNat, dif_pos hvalid]
      rfl
    have hself : mapByRuns upperRuns n = n := by
      rcases mapByRuns_cases upperRuns n with ⟨-, hself⟩ | ⟨run, hrun, hholds, -⟩
      · exact hself
      · exact absurd hholds (hruns run hrun)
    rw [IsCapital, upperChar, hn, if_neg hascii, hexpansions, hself]
  · have hnull : Char.ofNat n = '\x00' := by
      rw [Char.ofNat, dif_neg hvalid]
      rfl
    rw [hnull]
    decide

/-- The image of a letter under its run has no capital form but itself. -/
theorem isCapital_image {run : CaseRun} (hrun : run ∈ upperRuns) {n : Nat} (hn : run.Holds n) :
    IsCapital (Char.ofNat (run.target + (n - run.first))) := by
  by_cases hascii : run.target < 128
  · obtain ⟨hsingle, hcapital⟩ := single_of_target_lt run hrun hascii
    obtain ⟨hfirst, hlast, -⟩ := hn
    obtain rfl : n = run.first := by omega
    rwa [Nat.sub_self]
  · refine isCapital_of_not_holds (by omega) (List.lookup_eq_none_iff.2 fun entry hentry => ?_)
      fun other hother => hn.not_image (upperRuns_avoid run hrun other hother)
    have hmiss := hn.not_image (upperRuns_avoid_expansions run hrun entry hentry)
    rw [bne_iff_ne]
    intro heq
    exact hmiss ⟨Nat.le_of_eq heq.symm, Nat.le_of_eq heq, Nat.mod_one _⟩

theorem isCapital_of_mem_upperChar {c d : Char} (h : d ∈ upperChar c) : IsCapital d := by
  unfold upperChar at h
  split at h
  case isTrue hascii =>
    rw [List.mem_singleton.1 h, ← Char.ofNat_toNat c]
    exact isCapital_toUpper c.toNat hascii
  case isFalse hascii =>
    split at h
    · next letters hfound =>
      obtain ⟨n, hn, rfl⟩ := List.mem_map.1 h
      obtain ⟨before, after, htable, -⟩ := List.lookup_eq_some_iff.1 hfound
      have hentry : (c.toNat, letters) ∈ upperExpansions := by
        rw [htable]
        exact List.mem_append_right before List.mem_cons_self
      exact isCapital_of_expansion _ hentry n hn
    · next hnone =>
      rw [List.mem_singleton.1 h]
      rcases mapByRuns_cases upperRuns c.toNat with
        ⟨hruns, hself⟩ | ⟨run, hrun, hholds, himage⟩
      · rw [hself]
        exact isCapital_of_not_holds hascii hnone hruns
      · rw [himage]
        exact isCapital_image hrun hholds

theorem upper_of_isCapital {text : List Char} (h : ∀ c ∈ text, IsCapital c) :
    upper text = text := by
  induction text with
  | nil => rfl
  | cons c rest ih =>
      have hrest := ih fun d hd => h d (List.mem_cons_of_mem c hd)
      have hc : upperChar c = [c] := h c List.mem_cons_self
      rw [upper, List.flatMap_cons, hc, ← upper, hrest]
      rfl

/-- A text in capital letters is its own capital form. -/
theorem upper_upper (text : List Char) : upper (upper text) = upper text :=
  upper_of_isCapital fun _ hd =>
    have ⟨_, _, hmem⟩ := List.mem_flatMap.1 hd
    isCapital_of_mem_upperChar hmem

end PropertyGraph.Text
