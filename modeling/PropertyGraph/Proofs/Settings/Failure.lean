import PropertyGraph.CommandLine.Run
import PropertyGraph.Proofs.Number.Range

/-!
How reading settings can fail. Each of the seven settings is looked up in its section and converted
to its form, and the first that does not convert ends the reading. Some of these failures are
reported as faults of the document; others escape as if the program were at fault. Main statement:
which documents make a failure escape.
-/

namespace PropertyGraph.Settings

/-- How a conversion ends: with a result, with an error that is reported, or with one that is not
reported. -/
inductive Fate where
  | converted | refused | escaped
  deriving DecidableEq

namespace Fate

def ofResult : Except SettingsError α → Fate
  | .ok _ => .converted
  | .error e => if (CommandLine.CommandError.settings e).isReported then .refused else .escaped

/-- What comes next is done only after a conversion with a result. -/
def andThen : Fate → Fate → Fate
  | converted, next => next
  | failed, _ => failed

theorem ofResult_bind {x : Except SettingsError α} {f : α → Except SettingsError β} {next : Fate}
    (h : ∀ value, ofResult (f value) = next) : ofResult (x >>= f) = (ofResult x).andThen next := by
  cases x with
  | ok value => exact h value
  | error e =>
      simp only [bind, Except.bind, ofResult]
      split <;> rfl

theorem ofResult_ne_escaped_iff {x : Except SettingsError α} :
    ofResult x ≠ .escaped ↔ (∃ value, x = .ok value) ∨
      ∃ e, x = .error e ∧ (CommandLine.CommandError.settings e).isReported = true := by
  cases x with
  | ok value => simp [ofResult]
  | error e => simp [ofResult]

/-- A sequence escapes at a step that does so, if all before it have results. -/
theorem foldr_andThen_eq_escaped_iff {fate : α → Fate} {steps : List α} :
    (steps.map fate).foldr andThen .converted = .escaped ↔
      ∃ before step after, steps = before ++ step :: after ∧
        (∀ earlier ∈ before, fate earlier = .converted) ∧ fate step = .escaped := by
  induction steps with
  | nil => simp
  | cons first rest ih =>
      rw [List.map_cons, List.foldr_cons]
      constructor
      · intro h
        cases hfirst : fate first with
        | converted =>
            rw [hfirst] at h
            obtain ⟨before, step, after, rfl, hbefore, hstep⟩ := ih.1 h
            exact ⟨first :: before, step, after, rfl,
              List.forall_mem_cons.2 ⟨hfirst, hbefore⟩, hstep⟩
        | refused =>
            rw [hfirst] at h
            cases h
        | escaped => exact ⟨[], first, rest, rfl, nofun, hfirst⟩
      · rintro ⟨before, step, after, hsteps, hbefore, hstep⟩
        cases before with
        | nil =>
            obtain ⟨rfl, rfl⟩ := List.cons.inj hsteps
            rw [hstep]
            rfl
        | cons earlier before =>
            obtain ⟨rfl, rfl⟩ := List.cons.inj hsteps
            obtain ⟨hfirst, hbefore⟩ := List.forall_mem_cons.1 hbefore
            rw [hfirst]
            exact ih.2 ⟨before, step, after, rfl, hbefore, hstep⟩

end Fate

/-- What a setting is converted to. -/
inductive Form where
  | truthValue | number | integer | text
  deriving DecidableEq

namespace Form

/-- How values of each kind convert to a form. -/
def fate : Form → Value → Fate
  | truthValue, .bool _ => .converted
  | truthValue, _ => .refused
  | number, .str s => parsed (Numeral.double s.toList).isSome
  | number, .bytes data => parsed (Numeral.double (Value.spelled data)).isSome
  | number, .int n => if n.natAbs < Double.overflowThreshold then .converted else .escaped
  | number, .bool _ | number, .float _ => .converted
  | number, _ => .escaped
  | integer, .str s => parsed (Numeral.integer s.toList).isOk
  | integer, .bytes data => parsed (Numeral.integer (Value.spelled data)).isOk
  | integer, .int _ | integer, .bool _ => .converted
  | integer, .float .nan => .refused
  | integer, .float (.infinite _) => .escaped
  | integer, .float _ => .converted
  | integer, _ => .escaped
  | text, _ => .converted
where
  /-- Characters that do not spell a number are a fault that is reported. -/
  parsed : Bool → Fate
    | true => .converted
    | false => .refused

theorem fate_truthValue (name : String) (v : Value) :
    Fate.ofResult (Settings.truthValue name v) = truthValue.fate v := by
  cases v <;> rfl

theorem fate_ofInt (n : Int) :
    Fate.ofResult ((Number.int n).toDouble.mapError .arithmetic) =
      if n.natAbs < Double.overflowThreshold then .converted else .escaped := by
  unfold Number.toDouble
  dsimp only
  split
  case isTrue h =>
    rw [if_pos (Double.isFinite_ofInt_iff.1 h)]
    rfl
  case isFalse h =>
    rw [if_neg (mt Double.isFinite_ofInt_iff.2 h)]
    rfl

theorem fate_number (v : Value) : Fate.ofResult v.toDouble = number.fate v := by
  cases v with
  | str s =>
      unfold Value.toDouble fate
      dsimp only
      cases Numeral.double s.toList <;> rfl
  | bytes data =>
      unfold Value.toDouble fate
      dsimp only
      cases Numeral.double (Value.spelled data) <;> rfl
  | int n => exact fate_ofInt n
  | bool b =>
      have hsmall : (b.toNat : Int).natAbs < Double.overflowThreshold := by
        cases b <;> decide +kernel
      exact (fate_ofInt b.toNat).trans (if_pos hsmall)
  | _ => rfl

theorem fate_integer (v : Value) : Fate.ofResult v.toInteger = integer.fate v := by
  cases v with
  | str s =>
      unfold Value.toInteger fate
      dsimp only
      cases Numeral.integer s.toList with
      | ok n => rfl
      | error e => cases e <;> rfl
  | bytes data =>
      unfold Value.toInteger fate
      dsimp only
      cases Numeral.integer (Value.spelled data) with
      | ok n => rfl
      | error e => cases e <;> rfl
  | float x => cases x <;> rfl
  | _ => rfl

end Form

/-- A setting, by where a document has it. -/
structure Place where
  part : String
  key : String
  form : Form

/-- All settings, in the order in which they are converted. -/
def places : List Place := [
  ⟨"cache", "enabled", .truthValue⟩,
  ⟨"cache", "ttl_seconds", .number⟩,
  ⟨"engine", "replace_index_entries", .truthValue⟩,
  ⟨"traversal", "max_depth", .integer⟩,
  ⟨"vector_search", "limit", .integer⟩,
  ⟨"vector_search", "threshold", .number⟩,
  ⟨"logging", "level", .text⟩]

/-- How the setting of a document at a place converts. One that is missing does; in a section that
is no mapping nothing is found. -/
def Place.fate (document : List (Value × Value)) (place : Place) : Fate :=
  match sectionOf document place.part with
  | .dict entries => (Value.field? entries place.key).elim .converted place.form.fate
  | _ => .escaped

/-- What comes after a setting is done if this one converts. -/
theorem fate_setting_bind {document : List (Value × Value)} {part key : String} {form : Form}
    {default : α} {convert : Value → Except SettingsError α} {f : α → Except SettingsError β}
    {next : Fate} (hconvert : ∀ v, Fate.ofResult (convert v) = form.fate v)
    (hnext : ∀ value, Fate.ofResult (f value) = next) :
    Fate.ofResult (setting (sectionOf document part) key default convert >>= f) =
      (Place.fate document ⟨part, key, form⟩).andThen next := by
  rw [Fate.ofResult_bind hnext]
  congr 1
  unfold setting Place.fate
  dsimp only
  cases sectionOf document part with
  | dict entries =>
      dsimp only
      cases Value.field? entries key with
      | none => rfl
      | some v => exact hconvert v
  | _ => rfl

/-- Settings are converted one after the other. -/
theorem fate_convert (document : List (Value × Value)) :
    Fate.ofResult (convert document) =
      (places.map (Place.fate document)).foldr Fate.andThen .converted := by
  unfold convert
  simp only [places, List.map_cons, List.map_nil, List.foldr_cons, List.foldr_nil]
  refine fate_setting_bind (Form.fate_truthValue _) fun _ => ?_
  refine fate_setting_bind Form.fate_number fun _ => ?_
  refine fate_setting_bind (Form.fate_truthValue _) fun _ => ?_
  refine fate_setting_bind Form.fate_integer fun _ => ?_
  refine fate_setting_bind Form.fate_integer fun _ => ?_
  refine fate_setting_bind Form.fate_number fun _ => ?_
  exact fate_setting_bind (fun _ => rfl) fun _ => rfl

/-- A setting out of its range is a fault that is reported. -/
theorem isReported_of_outOfRange? {s : Settings} {e : SettingsError} (h : s.outOfRange? = some e) :
    (CommandLine.CommandError.settings e).isReported = true := by
  simp only [outOfRange?] at h
  split_ifs at h <;> cases h <;> rfl

/-- Checking the ranges lets nothing escape. -/
theorem fate_ofDocument_eq_escaped_iff {document : List (Value × Value)} :
    Fate.ofResult (ofDocument document) = .escaped ↔
      Fate.ofResult (convert document) = .escaped := by
  unfold ofDocument
  cases convert document with
  | error e => exact Iff.rfl
  | ok s =>
      simp only [bind, Except.bind]
      cases hrange : s.outOfRange? with
      | none => exact Iff.rfl
      | some e =>
          have hreported := isReported_of_outOfRange? hrange
          simp [Fate.ofResult, hreported]

/-- A document gives settings or an error that is reported, but for a setting that escapes after all
earlier ones have converted. -/
theorem settings_or_reported_iff (document : List (Value × Value)) :
    ((∃ s, ofDocument document = .ok s) ∨
        ∃ e, ofDocument document = .error e ∧
          (CommandLine.CommandError.settings e).isReported = true) ↔
      ¬ ∃ before place after, places = before ++ place :: after ∧
        (∀ earlier ∈ before, earlier.fate document = .converted) ∧
        place.fate document = .escaped := by
  rw [← Fate.ofResult_ne_escaped_iff, Ne, fate_ofDocument_eq_escaped_iff, fate_convert,
    Fate.foldr_andThen_eq_escaped_iff]

/-- A depth that is null is no fault that is reported. -/
theorem null_depth_escapes :
    ¬ ∀ document : List (Value × Value), (∃ s, ofDocument document = .ok s) ∨
      ∃ e, ofDocument document = .error e ∧
        (CommandLine.CommandError.settings e).isReported = true := by
  intro h
  have hnull : ofDocument [(.str "traversal", .dict [(.str "max_depth", .null)])] =
      .error (.notInteger .null) := by rfl
  rcases h [(.str "traversal", .dict [(.str "max_depth", .null)])] with ⟨s, hs⟩ | ⟨e, he, hreported⟩
  · rw [hnull] at hs
    cases hs
  · rw [hnull] at he
    obtain rfl := Except.error.inj he
    cases hreported

end PropertyGraph.Settings
