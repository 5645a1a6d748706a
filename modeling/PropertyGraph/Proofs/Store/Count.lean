import Mathlib.Algebra.BigOperators.Group.List.Lemmas
import Mathlib.Algebra.GroupWithZero.Nat
import PropertyGraph.Proofs.Store.Lookup
import PropertyGraph.Proofs.Store.Occupied

/-!
Counts in a store that reflects a history. The sizes of its indexes are numbers of distinct types and
property names of the stored nodes, and the number of identities under a type is the number of nodes
of that type.
-/

namespace PropertyGraph

/-- Two lists of the same members, of which the first repeats none. -/
theorem perm_dedup {α : Type u} [DecidableEq α] {distinct all : List α}
    (hdistinct : distinct.Nodup) (hmem : ∀ x, x ∈ distinct ↔ x ∈ all) :
    distinct.Perm all.dedup := by
  refine (List.perm_ext_iff_of_nodup hdistinct all.nodup_dedup).2 fun x => ?_
  rw [List.mem_dedup]
  exact hmem x

theorem nodup_eraseDups {α : Type u} [DecidableEq α] (l : List α) : l.eraseDups.Nodup := by
  induction hlength : l.length using Nat.strongRecOn generalizing l with
  | _ n ih =>
    cases l with
    | nil => simp
    | cons x rest =>
        rw [List.eraseDups_cons, List.nodup_cons]
        refine ⟨by simp [List.mem_eraseDups], ih _ ?_ _ rfl⟩
        rw [← hlength]
        exact Nat.lt_succ_of_le (List.length_filter_le _ _)

/-- The parts into which a function with known values divides a list add up to its length. -/
theorem sum_countP_eq_length {α : Type u} {β : Type v} [DecidableEq β] {f : α → β} {l : List α}
    {values : List β} (hdistinct : values.Nodup) (hvalues : ∀ x, x ∈ values ↔ x ∈ l.map f) :
    (values.map fun value => l.countP fun x => f x = value).sum = l.length := by
  have hperm : values.Perm (l.map f).dedup := perm_dedup hdistinct hvalues
  have hcount : (fun value => l.countP fun x => f x = value) = fun value => (l.map f).count value := by
    funext value
    rw [List.count_eq_countP, List.countP_map]
    exact List.countP_congr fun x _ => by simp
  rw [(hperm.map _).sum_nat, hcount, List.sum_map_count_dedup_eq_length, List.length_map]

/-- The last nodes of all identities have all identities. -/
theorem mem_map_key_latest {nodes : List Node} {key : String} :
    key ∈ (latest nodes).map Node.key ↔ key ∈ nodes.map Node.key := by
  induction nodes with
  | nil => rfl
  | cons node rest ih =>
      rw [latest]
      split
      case isTrue hlater =>
        obtain ⟨later, hmem, hkey⟩ := List.any_eq_true.1 hlater
        rw [ih, List.map_cons, List.mem_cons]
        refine ⟨.inr, ?_⟩
        rintro (rfl | h)
        · exact List.mem_map.2 ⟨later, hmem, by simpa using hkey⟩
        · exact h
      case isFalse =>
        rw [List.map_cons, List.map_cons, List.mem_cons, List.mem_cons, ih]

namespace Node

/-- An accepted node is filed under each of its properties. -/
theorem mem_names_propertyKeys {node : Node} (h : node.notScalar? = none) {name : String} :
    name ∈ node.propertyKeys.map (·.name) ↔ name ∈ node.properties.keys := by
  unfold propertyKeys
  rw [List.mem_map]
  constructor
  · rintro ⟨key, hkey, rfl⟩
    obtain ⟨entry, hentry, hfiled⟩ := List.mem_filterMap.1 hkey
    obtain ⟨valueKey, -, rfl⟩ := Option.map_eq_some_iff.1 hfiled
    exact OrderedMap.mem_keys_of_mem hentry
  · intro hname
    obtain ⟨value, hvalue⟩ := OrderedMap.mem_keys_iff.1 hname
    obtain ⟨valueKey, hkey⟩ := key?_of_accepted h hvalue
    have hfiled : node.propertyKey? name value =
        some ⟨name, valueKey, if valueKey.isReflexive then none else some node.key⟩ := by
      rw [propertyKey?, hkey]
      rfl
    have hentry := OrderedMap.mem_entries_of_get? hvalue
    exact ⟨_, List.mem_filterMap.2 ⟨(name, value), hentry, hfiled⟩, rfl⟩

end Node

namespace Index.Reflects

variable {κ : Type u} [DecidableEq κ] {keysOf : Node → List κ} {index : Index κ}
  {history : List Node}

/-- The keys of an index without empty entries are those of the nodes that it shows. -/
theorem mem_keys_iff (h : Reflects keysOf index history) (hoccupied : index.Occupied) {key : κ} :
    key ∈ OrderedMap.keys index ↔ ∃ node ∈ history, key ∈ keysOf node := by
  rw [Index.mem_keys_iff hoccupied, h key]
  constructor
  · rintro ⟨id, hid⟩
    obtain ⟨node, hnode, -⟩ := List.mem_map.1 hid
    obtain ⟨hmem, hkey⟩ := List.mem_filter.1 hnode
    exact ⟨node, hmem, of_decide_eq_true hkey⟩
  · rintro ⟨node, hnode, hkey⟩
    exact ⟨node.key, List.mem_map_of_mem (List.mem_filter.2 ⟨hnode, decide_eq_true hkey⟩)⟩

end Index.Reflects

namespace Store.Reflects

variable {store : Store} {history : List Node}

/-- Each node is stored under its own key. -/
theorem map_key_values (h : store.Reflects history) :
    store.nodes.values.map Node.key = store.nodes.keys := by
  rw [OrderedMap.values, List.map_map]
  refine List.map_congr_left fun entry hentry => ?_
  have hget := OrderedMap.get?_eq_some_iff.2 hentry
  rw [h.nodes] at hget
  simpa using List.find?_some hget

/-- The nodes of the store are those of the history, in some order. -/
theorem values_perm (h : store.Reflects history) : store.nodes.values.Perm history := by
  have hstored : store.nodes.values.Nodup := by
    refine List.Nodup.of_map Node.key ?_
    rw [h.map_key_values]
    exact OrderedMap.nodup_keys _
  refine (List.perm_ext_iff_of_nodup hstored (List.Nodup.of_map _ h.distinct)).2 fun node => ?_
  exact h.mem_values_iff

theorem size_eq (h : store.Reflects history) : store.size = history.length := by
  rw [← h.values_perm.length_eq, OrderedMap.values, List.length_map]
  rfl

theorem mem_types_iff (h : store.Reflects history) (hoccupied : store.byType.Occupied)
    {type : String} : type ∈ store.byType.keys ↔ type ∈ history.map Node.type := by
  rw [h.byType.mem_keys_iff hoccupied, List.mem_map]
  simp only [List.mem_singleton, eq_comm]

/-- Each type of the index is listed with the number of its nodes. -/
theorem typeCounts_eq (h : store.Reflects history) :
    store.typeCounts =
      store.byType.keys.map fun type => ⟨type, history.countP fun node => node.type = type⟩ := by
  rw [typeCounts, OrderedMap.keys, List.map_map]
  refine List.map_congr_left fun entry hentry => ?_
  have hids : store.byType.idsOf entry.1 = entry.2 := by
    rw [Index.idsOf, OrderedMap.get?_eq_some_iff.2 hentry]
    rfl
  have hcount : entry.2.length = history.countP fun node => node.type = entry.1 := by
    rw [← hids, h.byType, List.length_map, List.countP_eq_length_filter]
    simp only [List.mem_singleton, eq_comm]
  rw [hcount]
  rfl

theorem types_typeCounts (h : store.Reflects history) :
    store.typeCounts.map TypeCount.type = store.byType.keys := by
  rw [h.typeCounts_eq, List.map_map]
  exact List.map_id _

/-- A type is listed, with the number of its nodes, if it has any. -/
theorem mem_typeCounts_iff (h : store.Reflects history) (hoccupied : store.byType.Occupied)
    {type : String} {count : Nat} :
    ⟨type, count⟩ ∈ store.typeCounts ↔
      0 < count ∧ count = history.countP fun node => node.type = type := by
  have htype : type ∈ store.byType.keys ↔ 0 < history.countP fun node => node.type = type := by
    rw [h.mem_types_iff hoccupied, List.countP_pos_iff, List.mem_map]
    simp only [decide_eq_true_eq]
  rw [h.typeCounts_eq, List.mem_map]
  constructor
  · rintro ⟨other, hother, heq⟩
    obtain ⟨rfl, rfl⟩ := TypeCount.mk.inj heq
    exact ⟨htype.1 hother, rfl⟩
  · rintro ⟨hpos, rfl⟩
    exact ⟨type, htype.2 hpos, rfl⟩

theorem sum_typeCounts (h : store.Reflects history) (hoccupied : store.byType.Occupied) :
    (store.typeCounts.map TypeCount.count).sum = history.length := by
  rw [h.typeCounts_eq, List.map_map]
  exact sum_countP_eq_length (OrderedMap.nodup_keys _) fun _ => h.mem_types_iff hoccupied

theorem length_propertyNames (h : store.Reflects history) (hoccupied : store.byProperty.Occupied) :
    store.propertyNames.length = (history.flatMap fun node => node.properties.keys).dedup.length := by
  refine (perm_dedup (nodup_eraseDups _) fun name => ?_).length_eq
  rw [List.mem_eraseDups, List.mem_map, List.mem_flatMap]
  constructor
  · rintro ⟨key, hkey, rfl⟩
    obtain ⟨node, hnode, hfiled⟩ := (h.byProperty.mem_keys_iff hoccupied).1 hkey
    exact ⟨node, hnode,
      (Node.mem_names_propertyKeys (h.accepted node hnode)).1 (List.mem_map_of_mem hfiled)⟩
  · rintro ⟨node, hnode, hname⟩
    obtain ⟨key, hfiled, hname⟩ :=
      List.mem_map.1 ((Node.mem_names_propertyKeys (h.accepted node hnode)).2 hname)
    exact ⟨key, (h.byProperty.mem_keys_iff hoccupied).2 ⟨node, hnode, hfiled⟩, hname⟩

end Store.Reflects

end PropertyGraph
