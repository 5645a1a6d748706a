import PropertyGraph.Proofs.Store.Traversal

/-!
Traversals of one start to several depths. A deeper one goes on where a shallower one ends: what was
found stays in front, in its order. Each level that finds something leaves fewer stored identities
that were not met, so there is nothing more to find after as many levels as there are stored nodes.
-/

namespace PropertyGraph

namespace Traversal

variable {nodes : OrderedMap String Node} {relationships : List String}

theorem levels_of_no_frontier (left : Nat) (met : List String) :
    levels nodes relationships left met [] = [] := by
  cases left <;> rfl

theorem levels_cons (left : Nat) (met : List String) (id : String) (rest : List String) :
    levels nodes relationships (left + 1) met (id :: rest) =
      (meet nodes met (id :: rest)).1 ++
        levels nodes relationships left (meet nodes met (id :: rest)).2
          (targets relationships (meet nodes met (id :: rest)).1) := rfl

/-- More levels find more behind what fewer find. -/
theorem levels_isPrefix (left more : Nat) (met frontier : List String) :
    levels nodes relationships left met frontier <+:
      levels nodes relationships (left + more) met frontier := by
  induction left generalizing met frontier with
  | zero => exact List.nil_prefix
  | succ left ih =>
      cases frontier with
      | nil =>
          rw [levels_of_no_frontier]
          exact List.nil_prefix
      | cons id rest =>
          rw [Nat.succ_add, levels_cons, levels_cons]
          exact (List.prefix_append_right_inj _).2 (ih _ _)

/-- The stored identities that were not met. -/
def unmet (nodes : OrderedMap String Node) (met : List String) : List String :=
  nodes.keys.filter (· ∉ met)

theorem length_unmet_le (met : List String) : (unmet nodes met).length ≤ nodes.size := by
  rw [OrderedMap.size_eq_length_keys]
  exact List.length_filter_le _ _

/-- A stored identity that is met for the first time is one less that was not. -/
theorem length_unmet_cons {met : List String} {id : String} (hnew : id ∉ met) {node : Node}
    (hget : nodes.get? id = some node) :
    (unmet nodes (id :: met)).length + 1 = (unmet nodes met).length := by
  have hmem : id ∈ unmet nodes met :=
    List.mem_filter.2 ⟨OrderedMap.mem_keys_iff.2 ⟨node, hget⟩, decide_eq_true hnew⟩
  have hdistinct : (unmet nodes met).Nodup := nodes.nodup_keys.filter _
  have herase : unmet nodes (id :: met) = (unmet nodes met).erase id := by
    rw [hdistinct.erase_eq_filter, unmet, unmet, List.filter_filter]
    refine List.filter_congr fun other _ => ?_
    by_cases hother : other = id <;> simp [hother]
  rw [herase]
  exact List.length_erase_add_one hmem

/-- Each node that is met at a level is one less that was not. -/
theorem length_unmet_meet (nodes : OrderedMap String Node) (met ids : List String) :
    (unmet nodes (meet nodes met ids).2).length + (meet nodes met ids).1.length =
      (unmet nodes met).length := by
  induction ids generalizing met with
  | nil => rfl
  | cons id rest ih =>
      by_cases hmet : id ∈ met
      · rw [meet_cons_of_mem hmet]
        exact ih met
      · cases hget : nodes.get? id with
        | none =>
            rw [meet_cons_of_none hget]
            exact ih met
        | some node =>
            rw [meet_cons_of_some hmet hget, List.length_cons, ← length_unmet_cons hmet hget,
              ← ih (id :: met)]
            rfl

/-- A level that finds nothing leads nowhere, whatever number of levels is left. -/
theorem levels_of_nothing_met (left : Nat) {met frontier : List String}
    (h : (meet nodes met frontier).1 = []) :
    levels nodes relationships left met frontier = [] := by
  cases left with
  | zero => rfl
  | succ left =>
      cases frontier with
      | nil => rfl
      | cons id rest =>
          rw [levels_cons, h]
          exact levels_of_no_frontier _ _

/-- As many levels as there are identities left to meet find all that there is. -/
theorem levels_of_exhausted (left more : Nat) (met frontier : List String)
    (h : (unmet nodes met).length ≤ left) :
    levels nodes relationships (left + more) met frontier =
      levels nodes relationships left met frontier := by
  induction left generalizing met frontier with
  | zero =>
      have hcount := length_unmet_meet nodes met frontier
      have hnone : (meet nodes met frontier).1 = [] := List.length_eq_zero_iff.1 (by omega)
      rw [levels_of_nothing_met _ hnone, levels_of_nothing_met _ hnone]
  | succ left ih =>
      by_cases hnone : (meet nodes met frontier).1 = []
      · rw [levels_of_nothing_met _ hnone, levels_of_nothing_met _ hnone]
      · have hcount := length_unmet_meet nodes met frontier
        have hpos : 0 < (meet nodes met frontier).1.length := List.length_pos_iff.2 hnone
        cases frontier with
        | nil => exact absurd rfl hnone
        | cons id rest =>
            rw [Nat.succ_add, levels_cons, levels_cons, ih _ _ (by omega)]

/-- What a traversal finds is the beginning of what a deeper one from the same start finds, and from
a depth on that is the number of stored nodes all find the same. -/
theorem reach_grows (nodes : OrderedMap String Node) (start : String)
    (relationships : List String) :
    (∀ near far : Int, near ≤ far →
      reach nodes start relationships near <+: reach nodes start relationships far) ∧
    ∀ near far : Int, nodes.size ≤ near → nodes.size ≤ far →
      reach nodes start relationships near = reach nodes start relationships far := by
  constructor
  · intro near far hle
    obtain ⟨more, hmore⟩ := Nat.exists_eq_add_of_le (Int.toNat_le_toNat hle)
    rw [reach, reach, hmore]
    exact levels_isPrefix _ _ _ _
  · have hfull : ∀ depth : Int, nodes.size ≤ depth →
        reach nodes start relationships depth = reach nodes start relationships nodes.size := by
      intro depth hle
      obtain ⟨more, hmore⟩ := Nat.exists_eq_add_of_le (Int.toNat_le_toNat hle)
      rw [reach, reach, hmore, Int.toNat_natCast]
      exact levels_of_exhausted _ _ _ _ (length_unmet_le _)
    intro near far hnear hfar
    rw [hfull near hnear, hfull far hfar]

/-- The target of a short way and of a longer one is found at the shorter distance, and stays where
it is when the traversal goes further. After four steps none of the four nodes is left to find. -/
theorem reach_grows_past_shortcut :
    let edge (target : String) : Edge := { relationship := "R", target := .str target }
    let node (id : String) (targets : List String) : Node :=
      { id := .str id, type := "t", edges := targets.map edge }
    let b := node "b" ["c"]
    let c := node "c" ["d", "a"]
    let d := node "d" ["b"]
    let nodes := OrderedMap.ofList [("a", node "a" ["b", "c"]), ("b", b), ("c", c), ("d", d)]
    (1 : Int) ≤ 2 ∧ (nodes.size : Int) ≤ 4 ∧ (nodes.size : Int) ≤ 9 ∧
      reach nodes "a" ["R"] 1 = [b, c] ∧ reach nodes "a" ["R"] 4 = [b, c, d] ∧
      reach nodes "a" ["R"] 1 <+: reach nodes "a" ["R"] 2 ∧
      reach nodes "a" ["R"] 4 = reach nodes "a" ["R"] 9 := by
  intro edge node b c d nodes
  have hsize : nodes.size = 4 := rfl
  have hle : (1 : Int) ≤ 2 := by decide
  have hfour : (nodes.size : Int) ≤ 4 := by rw [hsize]; decide
  have hnine : (nodes.size : Int) ≤ 9 := by rw [hsize]; decide
  obtain ⟨hgrows, hfull⟩ := reach_grows nodes "a" ["R"]
  exact ⟨hle, hfour, hnine, rfl, rfl, hgrows 1 2 hle, hfull 4 9 hfour hnine⟩

end Traversal

end PropertyGraph
