import PropertyGraph.Proofs.Except
import PropertyGraph.Proofs.Json
import PropertyGraph.Proofs.OrderedMap
import PropertyGraph.Proofs.Value.Json
import PropertyGraph.Query.Key

/-!
What the key of a query keeps of it: its names, operation, target, order and limit, and what each
clause binds each key to, up to the trees of values. The order of clauses is lost, and so is the
difference of a list and a tuple. Queries have keys unless a value in them has no tree, or their
limit too many digits.
-/

namespace PropertyGraph

theorem AggregateFunction.name_inj {f g : AggregateFunction} (h : f.name = g.name) : f = g := by
  cases f <;> cases g <;> first | rfl | exact absurd h (by decide)

theorem SortOrder.name_inj {o p : SortOrder} (h : o.name = p.name) : o = p := by
  cases o <;> cases p <;> first | rfl | exact absurd h (by decide)

theorem ComparisonOp.name_inj {o p : ComparisonOp} (h : o.name = p.name) : o = p := by
  cases o <;> cases p <;> first | rfl | exact absurd h (by decide)

namespace Query

/-- Objects of canonical form are equal only if they have the same members. -/
theorem mem_of_object_eq {members others : List (String × Json)}
    (h : object .canonical members = object .canonical others) (member : String × Json) :
    member ∈ members ↔ member ∈ others := by
  have hsorted := Json.object.inj h
  simp only [JsonStyle.canonical, if_true] at hsorted
  have hmembers :
      member ∈ members.mergeSort (fun a b => (compare a.1 b.1).isLE) ↔ member ∈ members :=
    List.mem_mergeSort
  rw [← hmembers, hsorted, List.mem_mergeSort]

/-- The tree of a clause that is active. -/
structure ClauseTree (clause : OrderedMap String α) (entryToJson : α → Except JsonError Json)
    (tree : Json) : Prop where
  active : clause.isEmpty = false
  encoded : ∀ key value, clause.get? key = some value → ∃ entry, entryToJson value = .ok entry
  entries : ∃ entries, tree = .object entries ∧ ∀ key entry, (key, entry) ∈ entries ↔
    ∃ value, clause.get? key = some value ∧ entryToJson value = .ok entry

theorem clauseToJson_ok {name : String} {clause : OrderedMap String α}
    {entryToJson : α → Except JsonError Json} {members : List (String × Json)}
    (h : clauseToJson .canonical name clause entryToJson = .ok members) :
    (clause.isEmpty = true ∧ members = []) ∨
      ∃ tree, members = [(name, tree)] ∧ ClauseTree clause entryToJson tree := by
  unfold clauseToJson at h
  split at h
  case isTrue hempty => exact .inl ⟨hempty, (Except.ok.inj h).symm⟩
  case isFalse hactive =>
    right
    generalize hentries : (List.mapM _ (clauseEntries .canonical clause) :
      Except JsonError (List (String × Json))) = result at h
    have hsorted : ∀ binding, binding ∈ clauseEntries .canonical clause ↔
        binding ∈ clause.entries := fun binding => List.mem_mergeSort
    cases result with
    | error e => cases h
    | ok entries =>
        refine ⟨.object entries, (Except.ok.inj h).symm, by simpa using hactive, ?_, entries, rfl,
          ?_⟩
        · intro key value hget
          obtain ⟨member, hmember⟩ :=
            ok_of_mapM hentries ((hsorted _).2 (OrderedMap.get?_eq_some_iff.1 hget))
          cases htree : entryToJson value with
          | error e => simp [htree, bind, Except.bind] at hmember
          | ok tree => exact ⟨tree, rfl⟩
        · intro key entry
          rw [mem_of_mapM hentries]
          constructor
          · rintro ⟨⟨other, value⟩, hmem, hentry⟩
            cases htree : entryToJson value with
            | error e => simp [htree, bind, Except.bind] at hentry
            | ok tree =>
                simp only [htree, bind, Except.bind, pure, Except.pure, Except.ok.injEq,
                  Prod.mk.injEq] at hentry
                obtain ⟨rfl, rfl⟩ := hentry
                exact ⟨value, OrderedMap.get?_eq_some_iff.2 ((hsorted _).1 hmem), htree⟩
          · rintro ⟨value, hget, htree⟩
            refine ⟨(key, value), (hsorted _).2 (OrderedMap.get?_eq_some_iff.1 hget), ?_⟩
            simp [htree, bind, Except.bind, pure, Except.pure]

section

variable {name : String} {clause : OrderedMap String α}
  {entryToJson : α → Except JsonError Json} {members : List (String × Json)}
  (h : clauseToJson .canonical name clause entryToJson = .ok members)

include h

theorem exists_mem_of_active (hactive : clause.isEmpty = false) :
    ∃ tree, (name, tree) ∈ members := by
  rcases clauseToJson_ok h with ⟨hempty, -⟩ | ⟨tree, rfl, -⟩
  · rw [hempty] at hactive
    cases hactive
  · exact ⟨tree, List.mem_singleton_self _⟩

theorem clauseTree_of_mem {label : String} {tree : Json} (hmem : (label, tree) ∈ members) :
    label = name ∧ ClauseTree clause entryToJson tree := by
  rcases clauseToJson_ok h with ⟨-, rfl⟩ | ⟨other, rfl, hclause⟩
  · cases hmem
  · obtain ⟨rfl, rfl⟩ := Prod.mk.inj (List.mem_singleton.1 hmem)
    exact ⟨rfl, hclause⟩

end

/-- Clauses of one tree bind the same keys, to values of one tree. -/
theorem ClauseTree.rel {first second : OrderedMap String α}
    {entryToJson : α → Except JsonError Json} {tree : Json}
    (hfirst : ClauseTree first entryToJson tree) (hsecond : ClauseTree second entryToJson tree)
    (key : String) :
    Option.Rel (fun v w => ∃ json, entryToJson v = .ok json ∧ entryToJson w = .ok json)
      (first.get? key) (second.get? key) := by
  obtain ⟨entries, rfl, hentries⟩ := hfirst.entries
  obtain ⟨others, hobject, hothers⟩ := hsecond.entries
  obtain rfl := Json.object.inj hobject
  cases hv : first.get? key with
  | none =>
      cases hw : second.get? key with
      | none => exact .none
      | some w =>
          obtain ⟨json, hjson⟩ := hsecond.encoded key w hw
          obtain ⟨v, hget, -⟩ := (hentries key json).1 ((hothers key json).2 ⟨w, hw, hjson⟩)
          rw [hv] at hget
          cases hget
  | some v =>
      obtain ⟨json, hjson⟩ := hfirst.encoded key v hv
      obtain ⟨w, hw, hwJson⟩ := (hothers key json).1 ((hentries key json).2 ⟨v, hv, hjson⟩)
      rw [hw]
      exact .some ⟨json, hjson, hwJson⟩

def aggregationTree (a : Aggregation) : Json :=
  object .canonical
    [("function", .str a.function.name), ("field", (a.field.map Json.str).getD .null)]

def comparisonTree (c : Comparison) : Except JsonError Json := do
  return object .canonical [("op", .str c.op.name), ("value", ← c.value.toJson .canonical)]

def sortingTree (s : Sorting) : Json :=
  object .canonical [("field", .str s.field), ("order", .str s.order.name)]

/-- What a member of the tree of a query holds, by its name. -/
structure IsMember (q : Query) (label : String) (tree : Json) : Prop where
  name : label = "name" → tree = .str q.name
  intent : label = "intent" → tree = .str q.intent
  operation : label = "operation" → tree = .str q.operation.tag
  target : label = "target" → tree = .str q.target
  conditions : label = "where" → ClauseTree q.conditions (Value.toJson .canonical) tree
  aggregations : label = "compute" →
    ClauseTree q.aggregations (fun a => .ok (aggregationTree a)) tree
  filters : label = "filter" → ClauseTree q.filters comparisonTree tree
  sorting : label = "sort" → ∃ s, q.sorting = some s ∧ tree = sortingTree s
  limit : label = "limit" → ∃ n, q.limit = some n ∧ tree = .int n

/-- The members of the tree of a query: the four names, and what is active of the rest. -/
structure Members (q : Query) (members : List (String × Json)) : Prop where
  sound : ∀ name tree, (name, tree) ∈ members → q.IsMember name tree
  name : ("name", .str q.name) ∈ members
  intent : ("intent", .str q.intent) ∈ members
  operation : ("operation", .str q.operation.tag) ∈ members
  target : ("target", .str q.target) ∈ members
  conditions : q.conditions.isEmpty = false → ∃ tree, ("where", tree) ∈ members
  aggregations : q.aggregations.isEmpty = false → ∃ tree, ("compute", tree) ∈ members
  filters : q.filters.isEmpty = false → ∃ tree, ("filter", tree) ∈ members
  sorting : ∀ s, q.sorting = some s → ("sort", sortingTree s) ∈ members
  limit : ∀ n, q.limit = some n → ("limit", .int n) ∈ members

theorem members_of_clauses {q : Query} {conditions aggregations filters : List (String × Json)}
    (hconditions : clauseToJson .canonical "where" q.conditions (Value.toJson .canonical) =
      .ok conditions)
    (haggregations : clauseToJson .canonical "compute" q.aggregations
      (fun a => .ok (aggregationTree a)) = .ok aggregations)
    (hfilters : clauseToJson .canonical "filter" q.filters comparisonTree = .ok filters) :
    Members q ([("name", .str q.name), ("intent", .str q.intent),
      ("operation", .str q.operation.tag), ("target", .str q.target)] ++
      conditions ++ aggregations ++ filters ++
      (q.sorting.toList.map fun s => ("sort", sortingTree s)) ++
      (q.limit.toList.map fun n => ("limit", Json.int n))) := by
  constructor
  case sound =>
    intro name tree h
    simp only [List.mem_append, List.mem_cons, List.not_mem_nil, or_false, List.mem_map,
      Option.mem_toList, Prod.mk.injEq] at h
    rcases h with (((((h | h) | h) | h) | h) | h)
    · rcases h with ⟨rfl, rfl⟩ | ⟨rfl, rfl⟩ | ⟨rfl, rfl⟩ | ⟨rfl, rfl⟩ <;> constructor <;> simp
    · obtain ⟨rfl, hclause⟩ := clauseTree_of_mem hconditions h
      constructor <;> simp [hclause]
    · obtain ⟨rfl, hclause⟩ := clauseTree_of_mem haggregations h
      constructor <;> simp [hclause]
    · obtain ⟨rfl, hclause⟩ := clauseTree_of_mem hfilters h
      constructor <;> simp [hclause]
    · obtain ⟨s, hs, rfl, rfl⟩ := h
      constructor <;> simp [hs]
    · obtain ⟨n, hn, rfl, rfl⟩ := h
      constructor <;> simp [hn]
  case conditions =>
    intro hactive
    obtain ⟨tree, hmem⟩ := exists_mem_of_active hconditions hactive
    exact ⟨tree, by simp [hmem]⟩
  case aggregations =>
    intro hactive
    obtain ⟨tree, hmem⟩ := exists_mem_of_active haggregations hactive
    exact ⟨tree, by simp [hmem]⟩
  case filters =>
    intro hactive
    obtain ⟨tree, hmem⟩ := exists_mem_of_active hfilters hactive
    exact ⟨tree, by simp [hmem]⟩
  case sorting =>
    intro s hs
    simp [hs]
  case limit =>
    intro n hn
    simp [hn]
  all_goals simp

theorem limitToJson_eq_ok_iff {limit : Option Int} {members : List (String × Json)} :
    limitToJson limit = .ok members ↔ (∀ n, limit = some n → withinDigits n = true) ∧
      members = limit.toList.map fun n => ("limit", Json.int n) := by
  cases limit with
  | none =>
      constructor
      · intro h
        exact ⟨nofun, (Except.ok.inj h).symm⟩
      · rintro ⟨-, rfl⟩
        rfl
  | some n =>
      constructor
      · intro h
        obtain ⟨m, hm, h⟩ := exists_of_bind h
        obtain ⟨hwithin, rfl⟩ := Value.writtenInt_eq_ok_iff.1 hm
        refine ⟨fun other hother => ?_, (Except.ok.inj h).symm⟩
        rwa [← Option.some.inj hother]
      · rintro ⟨hwithin, rfl⟩
        rw [limitToJson, Value.writtenInt_eq_ok_iff.2 ⟨hwithin n rfl, rfl⟩]
        rfl

theorem members_of_toJson {q : Query} {tree : Json} (h : q.toJson .canonical = .ok tree) :
    ∃ members, tree = object .canonical members ∧ Members q members := by
  unfold toJson at h
  obtain ⟨aggregations, haggregations, h⟩ := exists_of_bind h
  obtain ⟨filters, hfilters, h⟩ := exists_of_bind h
  obtain ⟨limit, hlimit, h⟩ := exists_of_bind h
  obtain ⟨conditions, hconditions, h⟩ := exists_of_bind h
  obtain ⟨-, rfl⟩ := limitToJson_eq_ok_iff.1 hlimit
  exact ⟨_, (Except.ok.inj h).symm, members_of_clauses hconditions haggregations hfilters⟩

theorem key_ok {q : Query} {key : String} (h : q.key = .ok key) :
    ∃ members, Members q members ∧ key = String.ofList (object .canonical members).compact := by
  unfold Query.key at h
  obtain ⟨tree, htree, h⟩ := exists_of_bind h
  obtain ⟨members, rfl, hmembers⟩ := members_of_toJson htree
  exact ⟨members, hmembers, (Except.ok.inj h).symm⟩

/-- Queries of one key have trees of the same members. -/
theorem mem_iff_of_key {a b : Query} {key : String} (ha : a.key = .ok key) (hb : b.key = .ok key) :
    ∃ members others, Members a members ∧ Members b others ∧
      ∀ member, member ∈ members ↔ member ∈ others := by
  obtain ⟨members, hmembers, rfl⟩ := key_ok ha
  obtain ⟨others, hothers, hkey⟩ := key_ok hb
  have htree := Json.compact_inj (String.ofList_injective hkey)
  exact ⟨members, others, hmembers, hothers, mem_of_object_eq htree⟩

theorem aggregationTree_inj {a b : Aggregation} (h : aggregationTree a = aggregationTree b) :
    a = b := by
  have hfunction := (mem_of_object_eq h ("function", .str a.function.name)).1 (by simp)
  have hfield := (mem_of_object_eq h ("field", (a.field.map Json.str).getD .null)).1 (by simp)
  obtain ⟨f, field⟩ := a
  obtain ⟨g, other⟩ := b
  have hname : f.name = g.name := by simpa using hfunction
  have hfields : field = other := by
    cases field with
    | none =>
        cases other with
        | none => rfl
        | some name => simp at hfield
    | some name =>
        cases other with
        | none => simp at hfield
        | some name' => simpa using hfield
  rw [AggregateFunction.name_inj hname, hfields]

theorem comparisonTree_rel {c d : Comparison} {tree : Json} (hc : comparisonTree c = .ok tree)
    (hd : comparisonTree d = .ok tree) :
    c.op = d.op ∧
      ∃ json, c.value.toJson .canonical = .ok json ∧ d.value.toJson .canonical = .ok json := by
  obtain ⟨json, hjson, hc⟩ := exists_of_bind hc
  obtain ⟨other, hother, hd⟩ := exists_of_bind hd
  have hobject := Except.ok.inj (hc.trans hd.symm)
  have hop := (mem_of_object_eq hobject ("op", .str c.op.name)).1 (by simp)
  have hvalue := (mem_of_object_eq hobject ("value", json)).1 (by simp)
  have hname : c.op.name = d.op.name := by simpa using hop
  obtain rfl : json = other := by simpa using hvalue
  exact ⟨ComparisonOp.name_inj hname, json, hjson, hother⟩

theorem sortingTree_inj {s t : Sorting} (h : sortingTree s = sortingTree t) : s = t := by
  have hfield := (mem_of_object_eq h ("field", .str s.field)).1 (by simp)
  have horder := (mem_of_object_eq h ("order", .str s.order.name)).1 (by simp)
  obtain ⟨field, order⟩ := s
  obtain ⟨other, order'⟩ := t
  have hfields : field = other := by simpa using hfield
  have horders : order.name = order'.name := by simpa using horder
  rw [hfields, SortOrder.name_inj horders]

/-- The queries agree in all that a key keeps. -/
structure KeyAlike (a b : Query) : Prop where
  name : a.name = b.name
  intent : a.intent = b.intent
  operation : a.operation = b.operation
  target : a.target = b.target
  conditions : ∀ key, Option.Rel
    (fun v w => ∃ json, v.toJson .canonical = .ok json ∧ w.toJson .canonical = .ok json)
    (a.conditions.get? key) (b.conditions.get? key)
  aggregations : ∀ key, a.aggregations.get? key = b.aggregations.get? key
  filters : ∀ key, Option.Rel
    (fun c d => c.op = d.op ∧
      ∃ json, c.value.toJson .canonical = .ok json ∧ d.value.toJson .canonical = .ok json)
    (a.filters.get? key) (b.filters.get? key)
  sorting : a.sorting = b.sorting
  limit : a.limit = b.limit

/-- Clauses that have the same members have related bindings. -/
theorem rel_of_members {first second : OrderedMap String α}
    {entryToJson : α → Except JsonError Json} (isMember : Json → Prop)
    (hfirst : first.isEmpty = false → ∃ tree, isMember tree)
    (hsecond : second.isEmpty = false → ∃ tree, isMember tree)
    (htree : ∀ tree, isMember tree →
      ClauseTree first entryToJson tree ∧ ClauseTree second entryToJson tree) (key : String) :
    Option.Rel (fun v w => ∃ json, entryToJson v = .ok json ∧ entryToJson w = .ok json)
      (first.get? key) (second.get? key) := by
  cases hempty : first.isEmpty with
  | false =>
      obtain ⟨tree, hmember⟩ := hfirst hempty
      obtain ⟨htreeFirst, htreeSecond⟩ := htree tree hmember
      exact htreeFirst.rel htreeSecond key
  | true =>
      cases hempty' : second.isEmpty with
      | false =>
          obtain ⟨tree, hmember⟩ := hsecond hempty'
          have hactive := (htree tree hmember).1.active
          rw [hempty] at hactive
          cases hactive
      | true =>
          rw [OrderedMap.isEmpty_iff.1 hempty, OrderedMap.isEmpty_iff.1 hempty']
          exact .none

theorem rel_imp {R S : α → α → Prop} {a b : Option α} (h : Option.Rel R a b)
    (himp : ∀ v w, R v w → S v w) : Option.Rel S a b := by
  cases h with
  | none => exact .none
  | some h => exact .some (himp _ _ h)

theorem eq_of_rel {R : α → α → Prop} {a b : Option α} (h : Option.Rel R a b)
    (heq : ∀ v w, a = some v → b = some w → R v w → v = w) : a = b := by
  cases h with
  | none => rfl
  | some h => rw [heq _ _ rfl rfl h]

theorem keyAlike_of_key {a b : Query} {key : String} (ha : a.key = .ok key)
    (hb : b.key = .ok key) : KeyAlike a b := by
  obtain ⟨members, others, hmembers, hothers, hsame⟩ := mem_iff_of_key ha hb
  have hboth : ∀ name tree, (name, tree) ∈ members → a.IsMember name tree ∧ b.IsMember name tree :=
    fun name tree h => ⟨hmembers.sound name tree h, hothers.sound name tree ((hsame _).1 h)⟩
  constructor
  case name => exact Json.str.inj ((hboth _ _ hmembers.name).2.name rfl)
  case intent => exact Json.str.inj ((hboth _ _ hmembers.intent).2.intent rfl)
  case target => exact Json.str.inj ((hboth _ _ hmembers.target).2.target rfl)
  case operation =>
    have htag := Json.str.inj ((hboth _ _ hmembers.operation).2.operation rfl)
    cases ha : a.operation
    cases hb : b.operation
    rw [ha, hb] at htag
    simpa using htag
  case conditions =>
    exact rel_of_members (fun tree => ("where", tree) ∈ members)
      hmembers.conditions
      (fun hactive => (hothers.conditions hactive).imp fun tree htree => (hsame _).2 htree)
      (fun tree htree =>
        ⟨(hboth _ _ htree).1.conditions rfl, (hboth _ _ htree).2.conditions rfl⟩)
  case aggregations =>
    intro key
    have hrel := rel_of_members (fun tree => ("compute", tree) ∈ members)
      hmembers.aggregations
      (fun hactive => (hothers.aggregations hactive).imp fun tree htree => (hsame _).2 htree)
      (fun tree htree =>
        ⟨(hboth _ _ htree).1.aggregations rfl, (hboth _ _ htree).2.aggregations rfl⟩) key
    refine eq_of_rel hrel ?_
    rintro v w - - ⟨json, hv, hw⟩
    exact aggregationTree_inj (Except.ok.inj (hv.trans hw.symm))
  case filters =>
    intro key
    have hrel := rel_of_members (fun tree => ("filter", tree) ∈ members)
      hmembers.filters
      (fun hactive => (hothers.filters hactive).imp fun tree htree => (hsame _).2 htree)
      (fun tree htree =>
        ⟨(hboth _ _ htree).1.filters rfl, (hboth _ _ htree).2.filters rfl⟩) key
    refine rel_imp hrel ?_
    rintro c d ⟨json, hc, hd⟩
    exact comparisonTree_rel hc hd
  case sorting =>
    refine Option.ext fun s => ⟨fun hs => ?_, fun hs => ?_⟩
    · obtain ⟨t, ht, htree⟩ := (hboth _ _ (hmembers.sorting s hs)).2.sorting rfl
      rw [sortingTree_inj htree]
      exact ht
    · obtain ⟨t, ht, htree⟩ := (hboth _ _ ((hsame _).2 (hothers.sorting s hs))).1.sorting rfl
      rw [sortingTree_inj htree]
      exact ht
  case limit =>
    refine Option.ext fun n => ⟨fun hn => ?_, fun hn => ?_⟩
    · obtain ⟨m, hm, htree⟩ := (hboth _ _ (hmembers.limit n hn)).2.limit rfl
      rw [Json.int.inj htree]
      exact hm
    · obtain ⟨m, hm, htree⟩ := (hboth _ _ ((hsame _).2 (hothers.limit n hn))).1.limit rfl
      rw [Json.int.inj htree]
      exact hm

theorem exists_clauseToJson (name : String) {clause : OrderedMap String α}
    {entryToJson : α → Except JsonError Json}
    (h : ∀ key value, clause.get? key = some value → ∃ tree, entryToJson value = .ok tree) :
    ∃ members, clauseToJson .canonical name clause entryToJson = .ok members := by
  unfold clauseToJson
  split
  · exact ⟨[], rfl⟩
  · refine exists_bind (exists_mapM fun entry hentry => ?_) fun _ => ⟨_, rfl⟩
    have hget := OrderedMap.get?_eq_some_iff.2 (List.mem_mergeSort.1 hentry)
    exact exists_bind (h entry.1 entry.2 hget) fun _ => ⟨_, rfl⟩

/-- A query has a key if all that it compares with has a tree, and its limit few enough digits. -/
theorem exists_key_of_values {q : Query}
    (hlimit : ∀ n, q.limit = some n → withinDigits n = true)
    (hconditions : ∀ key value, q.conditions.get? key = some value →
      ∃ json, value.toJson .canonical = .ok json)
    (hfilters : ∀ key c, q.filters.get? key = some c →
      ∃ json, c.value.toJson .canonical = .ok json) : ∃ key, q.key = .ok key := by
  have haggregations : ∃ members, clauseToJson .canonical "compute" q.aggregations
      (fun a => .ok (aggregationTree a)) = .ok members :=
    exists_clauseToJson "compute" fun _ _ _ => ⟨_, rfl⟩
  have hfilterTrees : ∃ members, clauseToJson .canonical "filter" q.filters comparisonTree =
      .ok members :=
    exists_clauseToJson "filter" fun key c hget =>
      exists_bind (hfilters key c hget) fun _ => ⟨_, rfl⟩
  have htree : ∃ tree, q.toJson .canonical = .ok tree :=
    exists_bind haggregations fun _ => exists_bind hfilterTrees fun _ =>
      exists_bind ⟨_, limitToJson_eq_ok_iff.2 ⟨hlimit, rfl⟩⟩ fun _ =>
        exists_bind (exists_clauseToJson "where" hconditions) fun _ => ⟨_, rfl⟩
  exact exists_bind htree fun _ => ⟨_, rfl⟩

/-- Nothing but its filters, its limit and its conditions keeps a query from having a key. -/
theorem key_eq_error_iff {q : Query} {e : JsonError} :
    q.key = .error e ↔
      clauseToJson .canonical "filter" q.filters comparisonTree = .error e ∨
        ∃ filters, clauseToJson .canonical "filter" q.filters comparisonTree = .ok filters ∧
          (limitToJson q.limit = .error e ∨ ∃ limit, limitToJson q.limit = .ok limit ∧
            clauseToJson .canonical "where" q.conditions (Value.toJson .canonical) = .error e) := by
  obtain ⟨members, hmembers⟩ : ∃ members, clauseToJson .canonical "compute" q.aggregations
      (fun a => .ok (aggregationTree a)) = .ok members :=
    exists_clauseToJson "compute" fun _ _ _ => ⟨_, rfl⟩
  constructor
  · intro h
    rcases bind_eq_error_iff.1 h with h | ⟨_, -, ⟨⟩⟩
    rcases bind_eq_error_iff.1 h with h | ⟨_, -, h⟩
    · cases hmembers.symm.trans h
    rcases bind_eq_error_iff.1 h with h | ⟨filters, hfilters, h⟩
    · exact .inl h
    refine .inr ⟨filters, hfilters, ?_⟩
    rcases bind_eq_error_iff.1 h with h | ⟨limit, hlimit, h⟩
    · exact .inl h
    rcases bind_eq_error_iff.1 h with h | ⟨_, -, ⟨⟩⟩
    exact .inr ⟨limit, hlimit, h⟩
  · intro h
    refine bind_eq_error_iff.2 (.inl (bind_eq_error_iff.2 (.inr ⟨members, hmembers, ?_⟩)))
    rcases h with h | ⟨filters, hfilters, h | ⟨limit, hlimit, h⟩⟩
    · exact bind_eq_error_iff.2 (.inl h)
    · exact bind_eq_error_iff.2 (.inr ⟨filters, hfilters, bind_eq_error_iff.2 (.inl h)⟩)
    · refine bind_eq_error_iff.2 (.inr ⟨filters, hfilters, ?_⟩)
      exact bind_eq_error_iff.2 (.inr ⟨limit, hlimit, bind_eq_error_iff.2 (.inl h)⟩)

end Query

end PropertyGraph
