import PropertyGraph.Proofs.Store.Traversal

/-!
Traversal with a queue. Identities are taken from its front; the targets of a node go to its end,
met before or not, so that one identity can wait at several distances. It is the first of them that
counts, and that is the shortest: the queue holds at most two levels, one after the other. The walk
ends, and finds what the traversal finds that goes level by level.
-/

namespace PropertyGraph

namespace Traversal

structure Queue where
  /-- The identities that wait, each with the number of edges that led to it. -/
  waiting : List (String × Nat)
  taken : List String := []
  found : List Node := []

namespace Queue

/-- Identities that wait at one distance. -/
def atDistance (steps : Nat) (ids : List String) : List (String × Nat) := ids.map (·, steps)

/-- The queue before the first step. -/
def start (id : String) : Queue := { waiting := atDistance 0 [id] }

variable (nodes : OrderedMap String Node) (relationships : List String) (depth : Int)

/-- Take the identity at the front. One that was taken before, or is too far away, is passed over;
a stored one is found, unless it is the start, and the targets of its node have to wait. -/
def step (q : Queue) : Option Queue :=
  match q.waiting with
  | [] => none
  | (id, steps) :: rest =>
    if id ∈ q.taken ∨ depth < steps then some { q with waiting := rest }
    else
      match nodes.get? id with
      | none => some { q with waiting := rest, taken := id :: q.taken }
      | some node => some {
          waiting := rest ++ atDistance (steps + 1) (targets relationships [node])
          taken := id :: q.taken
          found := if 0 < steps then q.found ++ [node] else q.found }

/-- The walk comes to an end, and these are the nodes that it has found then. -/
inductive Ends : Queue → List Node → Prop where
  | done {q : Queue} : q.step nodes relationships depth = none → Ends q q.found
  | step {q next : Queue} {found : List Node} :
      q.step nodes relationships depth = some next → Ends next found → Ends q found

/-- The stored identities among those taken are those met. -/
def Agree (met taken : List String) : Prop :=
  ∀ id node, nodes.get? id = some node → (id ∈ met ↔ id ∈ taken)

variable {nodes relationships depth} {taken met : List String} {found result : List Node}

theorem Agree.cons (h : Agree nodes met taken) (id : String) :
    Agree nodes (id :: met) (id :: taken) := by
  intro other node hget
  rw [List.mem_cons, List.mem_cons, h other node hget]

theorem Agree.cons_of_none (h : Agree nodes met taken) {id : String} (hid : nodes.get? id = none) :
    Agree nodes met (id :: taken) := by
  intro other node hget
  have hne : other ≠ id := by
    rintro rfl
    rw [hid] at hget
    cases hget
  rw [List.mem_cons, h other node hget, or_iff_right hne]

theorem targets_cons (node : Node) (rest : List Node) :
    targets relationships (node :: rest) =
      targets relationships [node] ++ targets relationships rest := by
  simp [targets]

/-- Identities beyond the depth are all passed over. -/
theorem ends_of_far {steps : Nat} (hfar : depth < steps) (ids : List String) :
    Ends nodes relationships depth ⟨atDistance steps ids, taken, found⟩ found := by
  induction ids with
  | nil => exact .done rfl
  | cons id rest ih =>
      refine .step ?_ ih
      simp [step, atDistance, hfar]

/-- The identities of one level are taken one after another; behind them gather the targets of the
nodes that are met for the first time. -/
theorem ends_of_level {steps : Nat} (hnear : (steps : Int) ≤ depth) (ids : List String)
    (later : List (String × Nat)) (hagree : Agree nodes met taken)
    (hnext : ∀ taken, Agree nodes (meet nodes met ids).2 taken →
      Ends nodes relationships depth
        ⟨later ++ atDistance (steps + 1) (targets relationships (meet nodes met ids).1), taken,
          if 0 < steps then found ++ (meet nodes met ids).1 else found⟩ result) :
    Ends nodes relationships depth ⟨atDistance steps ids ++ later, taken, found⟩ result := by
  induction ids generalizing later met taken found with
  | nil => simpa [atDistance, targets, meet] using hnext taken hagree
  | cons id rest ih =>
      have hdepth : ¬ depth < steps := Int.not_lt.2 hnear
      by_cases htaken : id ∈ taken
      · have htake : step nodes relationships depth
            ⟨atDistance steps (id :: rest) ++ later, taken, found⟩ =
              some ⟨atDistance steps rest ++ later, taken, found⟩ := by
          simp [step, atDistance, htaken]
        refine .step htake (ih later hagree fun taken' hagree' => ?_)
        have hmeet : meet nodes met (id :: rest) = meet nodes met rest := by
          cases hget : nodes.get? id with
          | none => exact meet_cons_of_none hget met rest
          | some node => exact meet_cons_of_mem ((hagree id node hget).2 htaken) rest
        rw [hmeet] at hnext
        exact hnext taken' hagree'
      · cases hget : nodes.get? id with
        | none =>
            rw [meet_cons_of_none hget] at hnext
            have htake : step nodes relationships depth
                ⟨atDistance steps (id :: rest) ++ later, taken, found⟩ =
                  some ⟨atDistance steps rest ++ later, id :: taken, found⟩ := by
              simp [step, atDistance, htaken, hdepth, hget]
            exact .step htake (ih later (hagree.cons_of_none hget) hnext)
        | some node =>
            have hmet : id ∉ met := fun h => htaken ((hagree id node hget).1 h)
            rw [meet_cons_of_some hmet hget] at hnext
            have htake : step nodes relationships depth
                ⟨atDistance steps (id :: rest) ++ later, taken, found⟩ =
                  some ⟨atDistance steps rest ++
                    (later ++ atDistance (steps + 1) (targets relationships [node])), id :: taken,
                    if 0 < steps then found ++ [node] else found⟩ := by
              simp [step, atDistance, htaken, hdepth, hget]
            refine .step htake (ih _ (hagree.cons id) fun taken' hagree' => ?_)
            have hends := hnext taken' hagree'
            rw [targets_cons] at hends
            split
            case isTrue hsteps =>
              rw [if_pos hsteps] at hends
              simpa [atDistance] using hends
            case isFalse hsteps =>
              rw [if_neg hsteps] at hends
              simpa [atDistance] using hends

/-- From the front of a level on, the walk finds what the levels that are left find. -/
theorem ends_of_levels {steps left : Nat} (hleft : depth + 1 = steps + left) (hsteps : 0 < steps)
    (frontier : List String) (hagree : Agree nodes met taken) :
    Ends nodes relationships depth ⟨atDistance steps frontier, taken, found⟩
      (found ++ levels nodes relationships left met frontier) := by
  induction left generalizing steps frontier met taken found with
  | zero =>
      rw [levels, List.append_nil]
      exact ends_of_far (by omega) frontier
  | succ left ih =>
      rw [levels]
      split
      case isTrue hempty =>
        rw [List.isEmpty_iff.1 hempty, List.append_nil]
        exact .done rfl
      case isFalse =>
        have hlevel : Ends nodes relationships depth ⟨atDistance steps frontier ++ [], taken, found⟩
            (found ++ ((meet nodes met frontier).1 ++ levels nodes relationships left
              (meet nodes met frontier).2
              (targets relationships (meet nodes met frontier).1))) := by
          refine ends_of_level (by omega) frontier [] hagree fun taken' hagree' => ?_
          rw [if_pos hsteps, List.nil_append, ← List.append_assoc]
          exact ih (by omega) (Nat.succ_pos steps) _ hagree'
        rwa [List.append_nil] at hlevel

/-- The walk from a start finds what the traversal finds. -/
theorem ends_start (id : String) :
    Ends nodes relationships depth (start id) (reach nodes id relationships depth) := by
  by_cases hdepth : depth < 0
  · have hnone : reach nodes id relationships depth = [] := by
      rw [reach, Int.toNat_of_nonpos (Int.le_of_lt hdepth)]
      rfl
    rw [hnone]
    exact ends_of_far hdepth [id]
  · have hagree : Agree nodes [] [] := fun _ _ _ => Iff.rfl
    have hlevel : Ends nodes relationships depth ⟨atDistance 0 [id] ++ [], [], []⟩
        (reach nodes id relationships depth) := by
      refine ends_of_level (by omega) [id] [] hagree fun taken hagree' => ?_
      exact ends_of_levels (by omega) Nat.one_pos _ hagree'
    exact hlevel

end Queue

variable {nodes : OrderedMap String Node} {relationships : List String}

theorem mem_values_iff (hkeyed : Keyed nodes) (node : Node) :
    node ∈ nodes.values ↔ nodes.get? node.key = some node := by
  constructor
  · intro h
    obtain ⟨⟨id, node⟩, hentry, rfl⟩ := List.mem_map.1 h
    have hget := OrderedMap.get?_eq_some_iff.2 hentry
    exact hkeyed id node hget ▸ hget
  · intro h
    exact List.mem_map_of_mem (OrderedMap.mem_entries_of_get? h)

/-- Edges lead from a start only if it is stored. -/
theorem stored_of_path {start id : String} {steps : Nat} (hsteps : 1 ≤ steps)
    (h : Path nodes relationships start steps id) : ∃ node, nodes.get? start = some node := by
  induction h with
  | nil => cases hsteps
  | @concat steps source target hpath hleads ih =>
      cases hpath with
      | nil => exact hleads.imp fun node h => h.1
      | concat => exact ih (Nat.le_add_left 1 _)

/-- The nodes that a walk from a start has to find. -/
structure Reached (nodes : OrderedMap String Node) (relationships : List String) (start : String)
    (depth : Int) (found : List Node) : Prop where
  ends : Queue.Ends nodes relationships depth (.start start) found
  distinct : (found.map Node.key).Nodup
  mem_iff : ∀ node, node ∈ found ↔ node ∈ nodes.values ∧ node.key ≠ start ∧
    ∃ steps : Nat, 1 ≤ steps ∧ steps ≤ depth ∧ Path nodes relationships start steps node.key
  sorted : (found.map fun node => distance nodes relationships start node.key).Pairwise (· ≤ ·)
  nil_of_absent : nodes.get? start = none → found = []

/-- Traversal finds the stored nodes other than the start that a path of at least one and at most
`depth` edges leads to, each once, in the order of their distances, and taking identities from a
queue finds the same. Nothing is found from a start that is not stored. -/
theorem reach_exact (hkeyed : Keyed nodes) (relationships : List String) (start : String)
    (depth : Int) :
    Reached nodes relationships start depth (reach nodes start relationships depth) := by
  have hring : Ring nodes relationships start 0 depth.toNat
      (reach nodes start relationships depth) := ring_reach hkeyed depth
  have hmem : ∀ node, node ∈ reach nodes start relationships depth ↔
      node ∈ nodes.values ∧ node.key ≠ start ∧ ∃ steps : Nat, 1 ≤ steps ∧ steps ≤ depth ∧
        Path nodes relationships start steps node.key := by
    intro node
    rw [hring.mem_iff, mem_values_iff hkeyed, within_zero_iff]
    refine and_congr_right fun hget => and_congr_right fun hne => exists_congr fun steps => ?_
    constructor
    · rintro ⟨hle, hpath⟩
      have hpos : steps ≠ 0 := by
        rintro rfl
        exact hne (path_zero_iff.1 hpath)
      exact ⟨by omega, by omega, hpath⟩
    · rintro ⟨-, hle, hpath⟩
      exact ⟨by omega, hpath⟩
  refine ⟨Queue.ends_start start, hring.distinct, hmem, hring.sorted, fun hnone => ?_⟩
  refine List.eq_nil_iff_forall_not_mem.2 fun node hnode => ?_
  obtain ⟨-, -, steps, hsteps, -, hpath⟩ := (hmem node).1 hnode
  obtain ⟨first, hfirst⟩ := stored_of_path hsteps hpath
  rw [hnone] at hfirst
  cases hfirst

/-- A diamond with a loop at its start, a doubled edge, a way back and a dangling edge. The node
behind it is too far away, and so is not found. -/
theorem reach_of_diamond :
    let edge (relationship target : String) : Edge := { relationship, target := .str target }
    let node (id : String) (edges : List Edge) : Node := { id := .str id, type := "t", edges }
    let a := node "a" [edge "R" "a", edge "R" "b", edge "R" "c", edge "R" "b", edge "S" "e"]
    let b := node "b" [edge "R" "d", edge "R" "gone"]
    let c := node "c" [edge "R" "d"]
    let d := node "d" [edge "R" "a", edge "R" "e"]
    let e := node "e" []
    let nodes := OrderedMap.ofList [("a", a), ("b", b), ("c", c), ("d", d), ("e", e)]
    Keyed nodes ∧ reach nodes "a" ["R"] 2 = [b, c, d] ∧ Reached nodes ["R"] "a" 2 [b, c, d] := by
  intro edge node a b c d e nodes
  have hkeyed : Keyed nodes := by
    intro id node hget
    have hmem := OrderedMap.mem_entries_of_get? hget
    have hentries : nodes.entries = [("a", a), ("b", b), ("c", c), ("d", d), ("e", e)] := rfl
    rw [hentries] at hmem
    simp only [List.mem_cons, Prod.mk.injEq, List.not_mem_nil, or_false] at hmem
    rcases hmem with ⟨rfl, rfl⟩ | ⟨rfl, rfl⟩ | ⟨rfl, rfl⟩ | ⟨rfl, rfl⟩ | ⟨rfl, rfl⟩ <;> rfl
  have hreach : reach nodes "a" ["R"] 2 = [b, c, d] := by rfl
  exact ⟨hkeyed, hreach, hreach ▸ reach_exact hkeyed ["R"] "a" 2⟩

end Traversal

end PropertyGraph
