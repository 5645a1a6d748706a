import PropertyGraph.Proofs.Engine.Lookup
import PropertyGraph.Proofs.Store.Count
import PropertyGraph.Proofs.Store.Ranking

/-!
Searches for the nodes most similar to a vector, among all nodes and among those of one type. The
candidates come from different places and in different orders, so that nodes of equal scores can be
found in different orders. The nodes are the same nevertheless, and so are their scores, one by one.
-/

namespace PropertyGraph

namespace Similarity

/-- Two descending lists of the same scored nodes have the same scores, one by one. -/
theorem map_place_of_descending {ranked other : List Scored}
    (hnan : ∀ s ∈ ranked, s.score ≠ .nan) (hperm : ranked.Perm other)
    (hranked : ranked.Pairwise fun a b => ¬ a.score < b.score)
    (hother : other.Pairwise fun a b => ¬ a.score < b.score) :
    ranked.map Scored.place = other.map Scored.place := by
  have hnan' : ∀ s ∈ other, s.score ≠ .nan := fun s hs => hnan s (hperm.mem_iff.2 hs)
  have hplaces {list : List Scored} (hnan : ∀ s ∈ list, s.score ≠ .nan)
      (hlist : list.Pairwise fun a b => ¬ a.score < b.score) :
      (list.map Scored.place).Pairwise fun p q => (q.compare p).isLE = true := by
    rw [List.pairwise_map]
    exact hlist.imp_of_mem fun ha hb h => (Scored.not_lt_iff (hnan _ ha) (hnan _ hb)).1 h
  refine List.Perm.eq_of_pairwise (fun p q _ _ hpq hqp => ?_) (hplaces hnan hranked)
    (hplaces hnan' hother) (hperm.map _)
  exact Extended.compare_eq_eq_iff.1 (Std.OrientedCmp.isLE_antisymm hqp hpq)

variable [VectorArithmetic] {vector : List Number} {threshold : Number} {nodes others : List Node}

theorem scored?_of_score? {node : Node} {score : Double} (h : score? vector node = some score) :
    scored? vector node = some ⟨node, score⟩ := by
  rw [scored?, h, Option.map_some]

theorem scored?_of_none {node : Node} (h : score? vector node = none) :
    scored? vector node = none := by
  rw [scored?, h, Option.map_none]

theorem score?_of_mem_eligible {s : Scored} (h : s ∈ eligible vector threshold nodes) :
    score? vector s.node = some s.score := by
  obtain ⟨node, -, hscored⟩ := List.mem_filterMap.1 (List.mem_filter.1 h).1
  obtain ⟨score, hscore, rfl⟩ := Option.map_eq_some_iff.1 hscored
  exact hscore

theorem map_node_scored_sublist :
    ((nodes.filterMap (scored? vector)).map Scored.node).Sublist nodes := by
  induction nodes with
  | nil => exact .slnil
  | cons node rest ih =>
      cases hscore : score? vector node with
      | none =>
          rw [List.filterMap_cons_none (scored?_of_none hscore)]
          exact ih.cons node
      | some score =>
          rw [List.filterMap_cons_some (scored?_of_score? hscore)]
          exact ih.cons_cons node

/-- Each eligible node is one of the candidates, and counted once. -/
theorem map_node_eligible_sublist :
    ((eligible vector threshold nodes).map Scored.node).Sublist nodes :=
  (List.filter_sublist.map _).trans map_node_scored_sublist

theorem eligible_perm (h : nodes.Perm others) :
    (eligible vector threshold nodes).Perm (eligible vector threshold others) :=
  (h.filterMap _).filter _

/-- A node is eligible or not whatever other candidates there are. -/
theorem eligible_filter (p : Node → Bool) :
    eligible vector threshold (nodes.filter p) =
      (eligible vector threshold nodes).filter fun s => p s.node := by
  have hscored : (nodes.filter p).filterMap (scored? vector) =
      (nodes.filterMap (scored? vector)).filter fun s => p s.node := by
    rw [List.filterMap_filter, List.filter_filterMap]
    refine List.filterMap_congr fun node _ => ?_
    cases hscore : score? vector node with
    | none => rw [scored?_of_none hscore, ite_self, Option.filter_none]
    | some score => rw [scored?_of_score? hscore, Option.filter_some]
  rw [eligible, eligible, hscored, List.filter_filter, List.filter_filter]
  exact List.filter_congr fun s _ => Bool.and_comm _ _

/-- The place of a node's score on the line; equal scores have one place. -/
def scorePlace? (vector : List Number) (node : Node) : Option Extended :=
  (score? vector node).bind Double.place?

theorem scorePlace?_of_mem_eligible {s : Scored} (h : s ∈ eligible vector threshold nodes) :
    scorePlace? vector s.node = some s.place := by
  rw [scorePlace?, score?_of_mem_eligible h, Option.bind_some,
    Scored.place?_score (ne_nan_of_eligible s h)]

/-- Among the nodes of which something holds, the same ones are ranked as among all, and each place
of a score in the one ranking is the place at the same position in the other. -/
theorem ranked_filter (vector : List Number) (threshold : Number) (p : Node → Bool)
    (h : others.Perm (nodes.filter p)) :
    (ranked vector threshold others).Perm
        ((ranked vector threshold nodes).filter fun s => p s.node) ∧
      (ranked vector threshold others).map Scored.place =
        ((ranked vector threshold nodes).filter fun s => p s.node).map Scored.place := by
  have hall : Ranking (eligible vector threshold nodes) (ranked vector threshold nodes) :=
    ranking_ranked
  have hsome : Ranking (eligible vector threshold others) (ranked vector threshold others) :=
    ranking_ranked
  have hperm : (ranked vector threshold others).Perm
      ((ranked vector threshold nodes).filter fun s => p s.node) := by
    refine hsome.perm.trans ((eligible_perm h).trans ?_)
    rw [eligible_filter]
    exact (hall.perm.filter _).symm
  refine ⟨hperm, map_place_of_descending (fun s hs => ?_) hperm hsome.descending
    (hall.descending.filter _)⟩
  exact ne_nan_of_eligible s (hsome.perm.mem_iff.1 hs)

theorem eligible_of_mem_ranked {s : Scored} (h : s ∈ ranked vector threshold nodes) :
    s ∈ eligible vector threshold nodes :=
  ranking_ranked.perm.mem_iff.1 h

/-- No more nodes are ranked than there are candidates. -/
theorem length_ranked_le : (ranked vector threshold nodes).length ≤ nodes.length := by
  rw [ranking_ranked.perm.length_eq, ← List.length_map Scored.node]
  exact map_node_eligible_sublist.length_le

theorem nodup_keys_ranked (h : (nodes.map Node.key).Nodup) :
    (((ranked vector threshold nodes).map Scored.node).map Node.key).Nodup := by
  rw [((ranking_ranked.perm.map Scored.node).map Node.key).nodup_iff]
  exact h.sublist (map_node_eligible_sublist.map _)

theorem map_scorePlace?_node {scored : List Scored}
    (h : ∀ s ∈ scored, s ∈ eligible vector threshold nodes) :
    (scored.map Scored.node).map (scorePlace? vector) = (scored.map Scored.place).map some := by
  rw [List.map_map, List.map_map]
  exact List.map_congr_left fun s hs => scorePlace?_of_mem_eligible (h s hs)

theorem mem_ranked_filter {p : Node → Bool} (h : others.Perm (nodes.filter p)) {node : Node} :
    node ∈ (ranked vector threshold others).map Scored.node ↔
      node ∈ (ranked vector threshold nodes).map Scored.node ∧ p node = true := by
  rw [((ranked_filter vector threshold p h).1.map Scored.node).mem_iff]
  simp only [List.mem_map, List.mem_filter]
  constructor
  · rintro ⟨s, ⟨hs, hp⟩, rfl⟩
    exact ⟨⟨s, hs, rfl⟩, hp⟩
  · rintro ⟨⟨s, hs, rfl⟩, hp⟩
    exact ⟨s, ⟨hs, hp⟩, rfl⟩

theorem map_scorePlace?_ranked_filter {p : Node → Bool} (h : others.Perm (nodes.filter p)) :
    ((ranked vector threshold others).map Scored.node).map (scorePlace? vector) =
      (((ranked vector threshold nodes).map Scored.node).filter p).map (scorePlace? vector) := by
  let filtered := (ranked vector threshold nodes).filter fun s => p s.node
  have hfiltered : ∀ s ∈ filtered, s ∈ eligible vector threshold nodes := fun s hs =>
    eligible_of_mem_ranked (List.mem_filter.1 hs).1
  calc ((ranked vector threshold others).map Scored.node).map (scorePlace? vector)
    _ = ((ranked vector threshold others).map Scored.place).map some :=
      map_scorePlace?_node fun _ => eligible_of_mem_ranked
    _ = (filtered.map Scored.place).map some := by rw [(ranked_filter vector threshold p h).2]
    _ = (filtered.map Scored.node).map (scorePlace? vector) := (map_scorePlace?_node hfiltered).symm
    _ = (((ranked vector threshold nodes).map Scored.node).filter p).map (scorePlace? vector) := by
      rw [List.filter_map]
      rfl

/-- Nodes that all have one embedding are ranked as they are. -/
theorem ranked_of_embedding {embedding : List Number} {score : Double}
    (hscore : cosine vector embedding = .ok score)
    (hpasses : score ≠ .nan ∧ threshold ≤ .float score)
    (h : ∀ node ∈ nodes, node.embedding = some embedding) :
    (ranked vector threshold nodes).map Scored.node = nodes := by
  have hscored : nodes.filterMap (scored? vector) = nodes.map (⟨·, score⟩) := by
    rw [← List.filterMap_eq_map]
    refine List.filterMap_congr fun node hnode => scored?_of_score? ?_
    rw [score?, h node hnode, Option.bind_some, hscore]
    rfl
  have heligible : eligible vector threshold nodes = nodes.map (⟨·, score⟩) := by
    rw [eligible, hscored, List.filter_eq_self]
    rintro s hs
    obtain ⟨node, -, rfl⟩ := List.mem_map.1 hs
    exact decide_eq_true hpasses
  rw [ranked, heligible, List.mergeSort_of_pairwise, List.map_map]
  · exact List.map_id _
  · refine List.pairwise_map.2 (List.pairwise_of_forall fun a b => ?_)
    have heq : Extended.compare (Scored.place ⟨b, score⟩) (Scored.place ⟨a, score⟩) = .eq :=
      Extended.compare_eq_eq_iff.2 rfl
    rw [ranksBefore, Bool.not_eq_true', decide_eq_false_iff_not,
      Scored.not_lt_iff hpasses.1 hpasses.1, heq]
    rfl

end Similarity

namespace Engine

open Similarity

variable {vector : List Number} {type : Option String} {limit : Int} {threshold : Option Number}

/-- The nodes among which a search looks. -/
def candidates (engine : Engine) (type : Option String) : List Node :=
  type.elim engine.store.nodes.values engine.store.nodesOfType

/-- The threshold of a search. -/
def bound (engine : Engine) (threshold : Option Number) : Number :=
  threshold.getD (.float engine.settings.vectorThreshold)

section

variable [VectorArithmetic] [LawfulVectorArithmetic]

theorem similar_of_comparesAll {engine : Engine} (hlimit : 0 ≤ limit)
    (h : ComparesAll vector (engine.candidates type)) :
    engine.similar vector type (some limit) threshold =
      .ok (((ranked vector (engine.bound threshold) (engine.candidates type)).take
        limit.toNat).map Scored.node) := by
  have hrank := rank_of_comparesAll (engine.bound threshold) hlimit h
  rw [candidates, bound] at hrank
  rw [similar, Option.getD_some, hrank]
  rfl

theorem similar_isOk_iff {engine : Engine} (hlimit : 0 ≤ limit) :
    (∃ found, engine.similar vector type (some limit) threshold = .ok found) ↔
      ComparesAll vector (engine.candidates type) := by
  refine ⟨fun hfound => Classical.byContradiction fun hnot => ?_,
    fun h => ⟨_, similar_of_comparesAll hlimit h⟩⟩
  have hrank := rank_of_not_comparesAll (engine.bound threshold) hlimit hnot
  rw [candidates, bound] at hrank
  rw [similar, Option.getD_some, hrank] at hfound
  obtain ⟨found, hfound⟩ := hfound
  cases hfound

/-- Under a limit that covers the candidates all ranked nodes are found. -/
theorem similar_of_covers {engine : Engine} (hlimit : (engine.candidates type).length ≤ limit)
    (h : ComparesAll vector (engine.candidates type)) :
    engine.similar vector type (some limit) threshold =
      .ok ((ranked vector (engine.bound threshold) (engine.candidates type)).map Scored.node) := by
  have hlength : (ranked vector (engine.bound threshold) (engine.candidates type)).length ≤
      (engine.candidates type).length := length_ranked_le
  rw [similar_of_comparesAll (by omega) h, List.take_of_length_le (by omega)]

/-- A search that covers candidates of one embedding, with a score that passes, finds them all. -/
theorem similar_of_embedding {engine : Engine} {embedding : List Number} {score : Double}
    (hlimit : (engine.candidates type).length ≤ limit)
    (hscore : cosine vector embedding = .ok score)
    (hpasses : score ≠ .nan ∧ engine.bound threshold ≤ .float score)
    (h : ∀ node ∈ engine.candidates type, node.embedding = some embedding) :
    engine.similar vector type (some limit) threshold = .ok (engine.candidates type) := by
  have hcompares : ComparesAll vector (engine.candidates type) := by
    intro node hnode other hother
    obtain rfl := Option.some.inj ((h node hnode).symm.trans hother)
    exact cosine_isOk_iff.1 ⟨score, hscore⟩
  rw [similar_of_covers hlimit hcompares, ranked_of_embedding hscore hpasses h]

end

section

variable {engine : Engine} {history : List Node} (h : engine.store.Reflects history)

include h

theorem candidates_perm : (engine.candidates none).Perm history := h.values_perm

theorem size_eq_length_candidates : engine.store.size = (engine.candidates none).length := by
  rw [h.size_eq, (candidates_perm h).length_eq]

theorem map_key_candidates : (engine.candidates none).map Node.key = engine.store.nodes.keys :=
  h.map_key_values

theorem candidates_type (type : String) :
    engine.candidates (some type) = history.filter fun node => node.type = type :=
  h.nodesOfType type

/-- The candidates of a type are those among all that have it, in another order. -/
theorem candidates_type_perm (type : String) :
    (engine.candidates (some type)).Perm
      ((engine.candidates none).filter fun node => node.type = type) := by
  rw [candidates_type h]
  exact ((candidates_perm h).filter _).symm

theorem nodup_keys_candidates (type : String) :
    ((engine.candidates (some type)).map Node.key).Nodup := by
  rw [candidates_type h]
  exact h.distinct.sublist (List.filter_sublist.map _)

end

/-- A search in all nodes under a limit that covers them gives a result exactly if the vector can be
compared with every embedding. Then a search in one type finds those of that type, each once, and
the first scores in that type are those that nodes of the type have first in the search in all. -/
theorem similar_of_type [VectorArithmetic] [LawfulVectorArithmetic] {settings : Settings}
    (hreplace : settings.replaceEntries = true)
    (actions : List Action) (vector : List Number) (threshold : Option Number) (type : String) :
    let engine := (start settings).performAll actions
    let size : Int := engine.store.size
    ((∃ all, engine.similar vector none (some size) threshold = .ok all) ↔
      ComparesAll vector engine.store.nodes.values) ∧
    ∀ all, engine.similar vector none (some size) threshold = .ok all →
      ∀ limit : Int, 0 ≤ limit → ∃ typed best,
        engine.similar vector (some type) (some size) threshold = .ok typed ∧
        engine.similar vector (some type) (some limit) threshold = .ok best ∧
        (typed.map Node.key).Nodup ∧
        (∀ node, node ∈ typed ↔ node ∈ all ∧ node.type = type) ∧
        best.map (scorePlace? vector) =
          ((all.filter fun node => node.type = type).map (scorePlace? vector)).take
            limit.toNat := by
  intro engine size
  obtain ⟨history, hreflects⟩ : ∃ history, engine.store.Reflects history :=
    ⟨_, reflects_performAll hreplace actions⟩
  have hsize : (engine.candidates none).length = size :=
    congrArg Int.ofNat (size_eq_length_candidates hreflects).symm
  have hperm := candidates_type_perm hreflects type
  have hcovers : (engine.candidates (some type)).length ≤ size := by
    rw [← hsize, hperm.length_eq]
    exact Int.ofNat_le.2 (List.length_filter_le _ _)
  have hsizeNonneg : 0 ≤ size := Int.natCast_nonneg _
  refine ⟨similar_isOk_iff hsizeNonneg, fun all hall limit hlimit => ?_⟩
  have hcompares : ComparesAll vector (engine.candidates none) :=
    (similar_isOk_iff hsizeNonneg).1 ⟨all, hall⟩
  have hcomparesTyped : ComparesAll vector (engine.candidates (some type)) := fun node hnode =>
    hcompares node (List.mem_filter.1 (hperm.mem_iff.1 hnode)).1
  rw [similar_of_covers (Int.le_of_eq hsize) hcompares, Except.ok.injEq] at hall
  subst hall
  refine ⟨_, _, similar_of_covers hcovers hcomparesTyped,
    similar_of_comparesAll hlimit hcomparesTyped, nodup_keys_ranked ?_, fun node => ?_, ?_⟩
  · exact nodup_keys_candidates hreflects type
  · rw [mem_ranked_filter hperm, decide_eq_true_eq]
  · rw [List.map_take, List.map_take, map_scorePlace?_ranked_filter hperm]

/-- A node that was added again stays first among all nodes and is the last of its type. Its score
is that of the others, so the searches differ in order, though not in scores. -/
theorem similar_of_tied :
    let node (id type : String) : Node :=
      { id := .str id, type, embedding := some [.int 1, .int 0] }
    let actions : List Action :=
      [.add (node "a" "t"), .add (node "b" "t"), .add (node "c" "u"), .add (node "a" "t")]
    let engine := (start {}).performAll actions
    let vector : List Number := [.int 2, .int 0]
    ({} : Settings).replaceEntries = true ∧ (0 : Int) ≤ 1 ∧ ∃ all typed best,
      engine.similar vector none (some 3) (some (.int 0)) = .ok all ∧
      engine.similar vector (some "t") (some 3) (some (.int 0)) = .ok typed ∧
      engine.similar vector (some "t") (some 1) (some (.int 0)) = .ok best ∧
      all.map Node.key = ["a", "b", "c"] ∧ typed.map Node.key = ["b", "a"] ∧
      (∀ node, node ∈ typed ↔ node ∈ all ∧ node.type = "t") ∧
      best.map (scorePlace? vector) =
        ((all.filter fun node => node.type = "t").map (scorePlace? vector)).take 1 := by
  intro node actions engine vector
  have hreplace : ({} : Settings).replaceEntries = true := rfl
  have hscore : cosine vector [.int 1, .int 0] = .ok (.ofInt 1) := by decide +kernel
  have hpasses : Double.ofInt 1 ≠ .nan ∧ engine.bound (some (.int 0)) ≤ .float (.ofInt 1) := by
    rw [bound, Option.getD_some]
    decide +kernel
  have hhistory : latest (additions actions) = [node "b" "t", node "c" "u", node "a" "t"] := by
    rfl
  have hreflects : engine.store.Reflects (latest (additions actions)) :=
    reflects_performAll hreplace actions
  rw [hhistory] at hreflects
  have hkeys : engine.store.nodes.keys = ["a", "b", "c"] := by decide +kernel
  have hsize : engine.store.size = 3 := hreflects.size_eq
  have hall : engine.similar vector none (some 3) (some (.int 0)) =
      .ok (engine.candidates none) := by
    have hlength := size_eq_length_candidates hreflects
    refine similar_of_embedding (by omega) hscore hpasses fun found hfound => ?_
    have hmem := (candidates_perm hreflects).mem_iff.1 hfound
    simp only [List.mem_cons, List.not_mem_nil, or_false] at hmem
    rcases hmem with rfl | rfl | rfl <;> rfl
  have hofType : engine.similar vector (some "t") (some 3) (some (.int 0)) =
      .ok [node "b" "t", node "a" "t"] := by
    have hcandidates : engine.candidates (some "t") = [node "b" "t", node "a" "t"] :=
      candidates_type hreflects "t"
    rw [← hcandidates]
    refine similar_of_embedding ?_ hscore hpasses fun found hfound => ?_
    · rw [hcandidates]
      decide
    · simp only [hcandidates, List.mem_cons, List.not_mem_nil, or_false] at hfound
      rcases hfound with rfl | rfl <;> rfl
  have hlimit : (0 : Int) ≤ 1 := by decide
  obtain ⟨-, hsearches⟩ := similar_of_type hreplace actions vector (some (.int 0)) "t"
  rw [show (start {}).performAll actions = engine from rfl, hsize] at hsearches
  obtain ⟨typed, best, htyped, hbest, -, hmem, hplaces⟩ := hsearches _ hall 1 hlimit
  have hallKeys : (engine.candidates none).map Node.key = ["a", "b", "c"] := by
    rw [map_key_candidates hreflects, hkeys]
  have htypedKeys : typed.map Node.key = ["b", "a"] := by
    rw [Except.ok.inj (htyped.symm.trans hofType)]
    rfl
  exact ⟨hreplace, hlimit, _, typed, best, hall, htyped, hbest, hallKeys, htypedKeys, hmem,
    hplaces⟩

end Engine

end PropertyGraph
