import Mathlib.Order.Lattice.Nat
import PropertyGraph.Proofs.OrderedMap
import PropertyGraph.Store.Traversal

/-!
Traversal finds exactly the stored nodes within its depth, the start left out, each once and nearer
ones first. What is known after some levels is a `Front`; the nodes that further levels find form a
`Ring` around it.
-/

namespace PropertyGraph

namespace Traversal

variable (nodes : OrderedMap String Node) (relationships : List String)

/-- Every node is stored under its own identity. -/
def Keyed : Prop := ∀ id node, nodes.get? id = some node → node.key = id

/-- A stored node owns an edge of one of the relationships that leads to an identity. -/
def Leads (source target : String) : Prop :=
  ∃ node, nodes.get? source = some node ∧
    ∃ edge ∈ node.edges, edge.relationship ∈ relationships ∧ edge.targetKey = target

/-- So many edges lead from the start to an identity. -/
inductive Path (start : String) : Nat → String → Prop where
  | nil : Path start 0 start
  | concat {steps : Nat} {source target : String} :
      Path start steps source → Leads nodes relationships source target →
        Path start (steps + 1) target

/-- At most so many edges lead from the start to an identity. -/
def Within (start : String) (steps : Nat) (id : String) : Prop :=
  ∃ n ≤ steps, Path nodes relationships start n id

/-- The number of edges of a shortest path. -/
noncomputable def distance (start id : String) : Nat :=
  sInf {steps | Path nodes relationships start steps id}

/-- The nodes that are further from the start than `near` and at most as far as `far`, each once
and nearer ones first. -/
structure Ring (start : String) (near far : Nat) (found : List Node) : Prop where
  mem_iff : ∀ node, node ∈ found ↔ nodes.get? node.key = some node ∧
    ¬ Within nodes relationships start near node.key ∧
      Within nodes relationships start far node.key
  distinct : (found.map Node.key).Nodup
  sorted : (found.map fun node => distance nodes relationships start node.key).Pairwise (· ≤ ·)

/-- What is known after so many levels: the stored identities met, and those that edges from the
last level lead to. -/
structure Front (start : String) (steps : Nat) (met frontier : List String) : Prop where
  mem_met : ∀ id, id ∈ met ↔
    (∃ node, nodes.get? id = some node) ∧ Within nodes relationships start steps id
  path : ∀ id ∈ frontier, Path nodes relationships start (steps + 1) id
  complete : ∀ id, Path nodes relationships start (steps + 1) id →
    id ∈ frontier ∨ Within nodes relationships start steps id

variable {nodes relationships} {start : String}

theorem path_zero_iff {id : String} : Path nodes relationships start 0 id ↔ id = start := by
  constructor
  · rintro ⟨⟩
    rfl
  · rintro rfl
    exact .nil

theorem path_succ_iff {steps : Nat} {target : String} :
    Path nodes relationships start (steps + 1) target ↔
      ∃ source, Path nodes relationships start steps source ∧
        Leads nodes relationships source target := by
  constructor
  · rintro ⟨⟩
    exact ⟨_, ‹_›, ‹_›⟩
  · rintro ⟨source, hpath, hleads⟩
    exact .concat hpath hleads

theorem within_zero_iff {id : String} : Within nodes relationships start 0 id ↔ id = start := by
  constructor
  · rintro ⟨n, hn, hpath⟩
    obtain rfl := Nat.le_zero.1 hn
    exact path_zero_iff.1 hpath
  · rintro rfl
    exact ⟨0, Nat.le_refl 0, .nil⟩

theorem Within.mono {near far : Nat} {id : String} (h : Within nodes relationships start near id)
    (hle : near ≤ far) : Within nodes relationships start far id := by
  obtain ⟨n, hn, hpath⟩ := h
  exact ⟨n, Nat.le_trans hn hle, hpath⟩

theorem within_succ_iff {steps : Nat} {id : String} :
    Within nodes relationships start (steps + 1) id ↔
      Within nodes relationships start steps id ∨
        Path nodes relationships start (steps + 1) id := by
  constructor
  · rintro ⟨n, hn, hpath⟩
    rcases Nat.lt_or_eq_of_le hn with hlt | rfl
    · exact .inl ⟨n, Nat.le_of_lt_succ hlt, hpath⟩
    · exact .inr hpath
  · rintro (h | hpath)
    · exact h.mono (Nat.le_succ steps)
    · exact ⟨steps + 1, Nat.le_refl _, hpath⟩

theorem Within.concat {steps : Nat} {source target : String}
    (h : Within nodes relationships start steps source)
    (hleads : Leads nodes relationships source target) :
    Within nodes relationships start (steps + 1) target := by
  obtain ⟨n, hn, hpath⟩ := h
  exact ⟨n + 1, Nat.succ_le_succ hn, .concat hpath hleads⟩

/-- An identity that edges lead to is within its distance, and within no less. -/
theorem distance_le_iff {far steps : Nat} {id : String}
    (h : Within nodes relationships start far id) :
    distance nodes relationships start id ≤ steps ↔ Within nodes relationships start steps id := by
  obtain ⟨n, -, hpath⟩ := h
  constructor
  · intro hle
    have hsome : {steps | Path nodes relationships start steps id}.Nonempty := ⟨n, hpath⟩
    exact ⟨_, hle, Nat.sInf_mem hsome⟩
  · rintro ⟨m, hm, hshort⟩
    exact Nat.le_trans (Nat.sInf_le hshort) hm

namespace Ring

/-- No path leads further than the outermost one. -/
theorem nil_of_closed {near far : Nat}
    (h : ∀ id, Within nodes relationships start far id → Within nodes relationships start near id) :
    Ring nodes relationships start near far [] where
  mem_iff node := by
    refine iff_of_false List.not_mem_nil ?_
    rintro ⟨-, hnear, hfar⟩
    exact hnear (h _ hfar)
  distinct := List.nodup_nil
  sorted := List.Pairwise.nil

/-- A ring and the next one around it. -/
theorem append {near middle far : Nat} {inner outer : List Node}
    (hinner : Ring nodes relationships start near middle inner)
    (houter : Ring nodes relationships start middle far outer) (hnear : near ≤ middle)
    (hfar : middle ≤ far) : Ring nodes relationships start near far (inner ++ outer) where
  mem_iff node := by
    rw [List.mem_append, hinner.mem_iff, houter.mem_iff]
    constructor
    · rintro (⟨hget, hnot, hwithin⟩ | ⟨hget, hnot, hwithin⟩)
      · exact ⟨hget, hnot, hwithin.mono hfar⟩
      · exact ⟨hget, fun h => hnot (h.mono hnear), hwithin⟩
    · rintro ⟨hget, hnot, hwithin⟩
      by_cases hmiddle : Within nodes relationships start middle node.key
      · exact .inl ⟨hget, hnot, hmiddle⟩
      · exact .inr ⟨hget, hmiddle, hwithin⟩
  distinct := by
    rw [List.map_append]
    refine List.nodup_append.2 ⟨hinner.distinct, houter.distinct, ?_⟩
    intro key hkey other hother
    obtain ⟨node, hnode, rfl⟩ := List.mem_map.1 hkey
    obtain ⟨node', hnode', rfl⟩ := List.mem_map.1 hother
    have hin := ((hinner.mem_iff node).1 hnode).2.2
    have hout := ((houter.mem_iff node').1 hnode').2.1
    intro hsame
    exact hout (hsame ▸ hin)
  sorted := by
    rw [List.map_append]
    refine List.pairwise_append.2 ⟨hinner.sorted, houter.sorted, ?_⟩
    intro d hd e he
    obtain ⟨node, hnode, rfl⟩ := List.mem_map.1 hd
    obtain ⟨node', hnode', rfl⟩ := List.mem_map.1 he
    obtain ⟨-, -, hin⟩ := (hinner.mem_iff node).1 hnode
    obtain ⟨-, hout, hwithin⟩ := (houter.mem_iff node').1 hnode'
    rw [← distance_le_iff hwithin, Nat.not_le] at hout
    exact Nat.le_of_lt (Nat.lt_of_le_of_lt ((distance_le_iff hin).2 hin) hout)

end Ring

theorem meet_cons_of_mem {met : List String} {id : String} (h : id ∈ met) (rest : List String) :
    meet nodes met (id :: rest) = meet nodes met rest := by
  rw [meet, if_pos h]

theorem meet_cons_of_none {id : String} (h : nodes.get? id = none) (met rest : List String) :
    meet nodes met (id :: rest) = meet nodes met rest := by
  rw [meet, h, ite_self]

theorem meet_cons_of_some {met : List String} {id : String} {node : Node} (hnew : id ∉ met)
    (h : nodes.get? id = some node) (rest : List String) :
    meet nodes met (id :: rest) =
      (node :: (meet nodes (id :: met) rest).1, (meet nodes (id :: met) rest).2) := by
  rw [meet, if_neg hnew, h]

/-- The nodes met at one level: those stored under its identities and not met before. -/
theorem mem_meet (hkeyed : Keyed nodes) (met ids : List String) (node : Node) :
    node ∈ (meet nodes met ids).1 ↔
      nodes.get? node.key = some node ∧ node.key ∈ ids ∧ node.key ∉ met := by
  induction ids generalizing met with
  | nil => simp [meet]
  | cons id rest ih =>
      by_cases hmet : id ∈ met
      · rw [meet_cons_of_mem hmet, ih]
        grind
      · cases hget : nodes.get? id with
        | none =>
            rw [meet_cons_of_none hget, ih]
            grind
        | some first =>
            have hkey := hkeyed id first hget
            rw [meet_cons_of_some hmet hget, List.mem_cons, ih]
            grind

theorem nodup_meet (hkeyed : Keyed nodes) (met ids : List String) :
    ((meet nodes met ids).1.map Node.key).Nodup := by
  induction ids generalizing met with
  | nil => exact List.nodup_nil
  | cons id rest ih =>
      by_cases hmet : id ∈ met
      · rw [meet_cons_of_mem hmet]
        exact ih met
      · cases hget : nodes.get? id with
        | none =>
            rw [meet_cons_of_none hget]
            exact ih met
        | some first =>
            rw [meet_cons_of_some hmet hget, List.map_cons, List.nodup_cons]
            refine ⟨fun h => ?_, ih _⟩
            obtain ⟨node, hnode, hsame⟩ := List.mem_map.1 h
            obtain ⟨-, -, hfresh⟩ := (mem_meet hkeyed _ _ node).1 hnode
            rw [hsame, hkeyed id first hget] at hfresh
            exact hfresh List.mem_cons_self

theorem mem_met (met ids : List String) (id : String) :
    id ∈ (meet nodes met ids).2 ↔
      id ∈ met ∨ (id ∈ ids ∧ ∃ node, nodes.get? id = some node) := by
  induction ids generalizing met with
  | nil => simp [meet]
  | cons first rest ih =>
      by_cases hmet : first ∈ met
      · rw [meet_cons_of_mem hmet, ih]
        grind
      · cases hget : nodes.get? first with
        | none =>
            rw [meet_cons_of_none hget, ih]
            grind
        | some node =>
            rw [meet_cons_of_some hmet hget, ih]
            grind

theorem mem_targets {found : List Node} {target : String} :
    target ∈ targets relationships found ↔
      ∃ node ∈ found, ∃ edge ∈ node.edges,
        edge.relationship ∈ relationships ∧ edge.targetKey = target := by
  simp [targets, and_assoc]

namespace Front

variable {steps : Nat} {met frontier : List String}
  (h : Front nodes relationships start steps met frontier)

include h

/-- Where nothing is ahead, all paths end within the steps made so far. -/
theorem closed (hfrontier : frontier = []) {n : Nat} {id : String}
    (hpath : Path nodes relationships start n id) : Within nodes relationships start steps id := by
  subst hfrontier
  induction hpath with
  | nil => exact ⟨0, Nat.zero_le _, .nil⟩
  | concat _ hleads ih =>
      rcases within_succ_iff.1 (ih.concat hleads) with hwithin | hlast
      · exact hwithin
      · exact (h.complete _ hlast).resolve_left List.not_mem_nil

/-- The nodes that are met at the next level are one step further than all before. -/
theorem mem_next (hkeyed : Keyed nodes) (node : Node) :
    node ∈ (meet nodes met frontier).1 ↔ nodes.get? node.key = some node ∧
      ¬ Within nodes relationships start steps node.key ∧
        Within nodes relationships start (steps + 1) node.key := by
  rw [mem_meet hkeyed, h.mem_met, within_succ_iff]
  constructor
  · rintro ⟨hget, hmem, hnew⟩
    exact ⟨hget, fun hwithin => hnew ⟨⟨node, hget⟩, hwithin⟩, .inr (h.path _ hmem)⟩
  · rintro ⟨hget, hnot, hwithin | hpath⟩
    · exact absurd hwithin hnot
    · exact ⟨hget, (h.complete _ hpath).resolve_right hnot, fun hmet => hnot hmet.2⟩

theorem ring (hkeyed : Keyed nodes) :
    Ring nodes relationships start steps (steps + 1) (meet nodes met frontier).1 where
  mem_iff := h.mem_next hkeyed
  distinct := nodup_meet hkeyed met frontier
  sorted := by
    -- All of them are at the same distance.
    have hdistance : ∀ node ∈ (meet nodes met frontier).1,
        distance nodes relationships start node.key = steps + 1 := by
      intro node hnode
      obtain ⟨-, hnot, hwithin⟩ := (h.mem_next hkeyed node).1 hnode
      rw [← distance_le_iff hwithin] at hnot hwithin
      omega
    rw [List.pairwise_map]
    refine List.pairwise_of_forall_mem_list fun a ha b hb => ?_
    rw [hdistance a ha, hdistance b hb]

/-- One more level. -/
theorem next (hkeyed : Keyed nodes) :
    Front nodes relationships start (steps + 1) (meet nodes met frontier).2
      (targets relationships (meet nodes met frontier).1) where
  mem_met id := by
    rw [Traversal.mem_met, h.mem_met, within_succ_iff]
    constructor
    · rintro (⟨hget, hwithin⟩ | ⟨hmem, hget⟩)
      · exact ⟨hget, .inl hwithin⟩
      · exact ⟨hget, .inr (h.path id hmem)⟩
    · rintro ⟨hget, hwithin | hpath⟩
      · exact .inl ⟨hget, hwithin⟩
      · rcases h.complete id hpath with hmem | hwithin
        · exact .inr ⟨hmem, hget⟩
        · exact .inl ⟨hget, hwithin⟩
  path id hid := by
    obtain ⟨node, hnode, edge, hedge, hrelationship, rfl⟩ := mem_targets.1 hid
    obtain ⟨hget, hnot, hwithin⟩ := (h.mem_next hkeyed node).1 hnode
    exact .concat ((within_succ_iff.1 hwithin).resolve_left hnot)
      ⟨node, hget, edge, hedge, hrelationship, rfl⟩
  complete id hid := by
    obtain ⟨source, hpath, node, hget, hedge⟩ := path_succ_iff.1 hid
    obtain rfl := hkeyed source node hget
    by_cases hwithin : Within nodes relationships start steps node.key
    · exact .inr (hwithin.concat ⟨node, hget, hedge⟩)
    · have hnode : node ∈ (meet nodes met frontier).1 :=
        (h.mem_next hkeyed node).2 ⟨hget, hwithin, within_succ_iff.2 (.inr hpath)⟩
      exact .inl (mem_targets.2 ⟨node, hnode, hedge⟩)

/-- The levels that are left find the ring around what is known. -/
theorem levels (hkeyed : Keyed nodes) (left : Nat) :
    Ring nodes relationships start steps (steps + left)
      (levels nodes relationships left met frontier) := by
  induction left generalizing steps met frontier with
  | zero => exact .nil_of_closed fun _ hwithin => hwithin
  | succ left ih =>
      rw [Traversal.levels]
      split
      case isTrue hempty =>
        refine .nil_of_closed fun id hwithin => ?_
        obtain ⟨n, -, hpath⟩ := hwithin
        exact h.closed (List.isEmpty_iff.1 hempty) hpath
      case isFalse =>
        have houter := ih (h.next hkeyed)
        rw [Nat.succ_add_eq_add_succ] at houter
        exact (h.ring hkeyed).append houter (Nat.le_succ steps) (by omega)

end Front

/-- Before the first level only the start is met, and that only if it is stored. -/
theorem front_zero (hkeyed : Keyed nodes) :
    Front nodes relationships start 0 (meet nodes [] [start]).2
      (targets relationships (meet nodes [] [start]).1) where
  mem_met id := by
    rw [mem_met, within_zero_iff]
    simp [and_comm]
  path id hid := by
    obtain ⟨node, hnode, hedge⟩ := mem_targets.1 hid
    obtain ⟨hget, hstart, -⟩ := (mem_meet hkeyed _ _ node).1 hnode
    rw [List.mem_singleton] at hstart
    exact .concat .nil ⟨node, hstart ▸ hget, hedge⟩
  complete id hid := by
    obtain ⟨source, hpath, node, hget, hedge⟩ := path_succ_iff.1 hid
    obtain rfl := path_zero_iff.1 hpath
    have hkey := hkeyed source node hget
    have hnode : node ∈ (meet nodes [] [source]).1 :=
      (mem_meet hkeyed _ _ node).2 ⟨hkey ▸ hget, by simp [hkey], List.not_mem_nil⟩
    exact .inl (mem_targets.2 ⟨node, hnode, hedge⟩)

theorem ring_reach (hkeyed : Keyed nodes) (depth : Int) :
    Ring nodes relationships start 0 depth.toNat (reach nodes start relationships depth) := by
  have hfront : Front nodes relationships start 0 _ _ := front_zero hkeyed
  have hlevels := hfront.levels hkeyed depth.toNat
  rw [Nat.zero_add] at hlevels
  exact hlevels

end Traversal

end PropertyGraph
