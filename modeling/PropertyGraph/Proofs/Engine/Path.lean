import PropertyGraph.Engine.Outcome
import PropertyGraph.Proofs.Engine.Answers
import PropertyGraph.Proofs.Engine.Lookup
import PropertyGraph.Proofs.Language.Literal
import PropertyGraph.Proofs.Language.Traversal
import PropertyGraph.Proofs.Store.Traversal

/-!
Requests for traversals with labels in brackets. The relationships that are followed are the labels
as they are shown after they were read. So they are the labels themselves exactly if all of these
last; another label is followed under another name, or the request fails.
-/

namespace PropertyGraph

open Text

/-- The relationships that a path of values names. -/
def shownLabels (values : List Value) : List String :=
  values.map fun value => String.ofList value.plain

theorem shownLabels_of_lasting {labels : List String}
    (hwords : ∀ label ∈ labels, Literal.IsWord label.toList)
    (h : ∀ label ∈ labels, Literal.Lasting label.toList) :
    ∃ values, labels.mapM (fun label => Literal.read label.toList) = .ok values ∧
      shownLabels values = labels := by
  induction labels with
  | nil => exact ⟨[], rfl, rfl⟩
  | cons label rest ih =>
      obtain ⟨hword, hwords⟩ := List.forall_mem_cons.1 hwords
      obtain ⟨hlabel, hrest⟩ := List.forall_mem_cons.1 h
      obtain ⟨value, hvalue, hplain⟩ := Literal.exists_read_of_lasting hword hlabel
      obtain ⟨values, hvalues, hshown⟩ := ih hwords hrest
      refine ⟨value :: values, ?_, ?_⟩
      · rw [List.mapM_cons, hvalue, hvalues]
        rfl
      · rw [shownLabels, List.map_cons, hplain, String.ofList_toList, ← shownLabels, hshown]

/-- A label that does not last is none of those that are shown. -/
theorem notMem_shownLabels {labels : List String} {values : List Value} {label : String}
    (hwords : ∀ label ∈ labels, Literal.IsWord label.toList)
    (hvalues : labels.mapM (fun label => Literal.read label.toList) = .ok values)
    (h : ¬ Literal.Lasting label.toList) : label ∉ shownLabels values := by
  intro hmem
  obtain ⟨value, hvalue, rfl⟩ := List.mem_map.1 hmem
  obtain ⟨other, hother, hread⟩ := (mem_of_mapM hvalues).1 hvalue
  rw [String.toList_ofList] at h
  exact h (Literal.lasting_plain (hwords other hother) hread)

namespace Traversal

variable {nodes : OrderedMap String Node} {relationships : List String} {start : String}

/-- Without an edge to follow from the start nothing is found. -/
theorem reach_eq_nil (hkeyed : Keyed nodes)
    (h : ∀ target, ¬ Leads nodes relationships start target) (depth : Int) :
    reach nodes start relationships depth = [] := by
  have hstays {steps : Nat} {id : String} (hpath : Path nodes relationships start steps id) :
      id = start := by
    induction hpath with
    | nil => rfl
    | concat _ hleads ih =>
        subst ih
        exact absurd hleads (h _)
  refine List.eq_nil_iff_forall_not_mem.2 fun node hnode => ?_
  obtain ⟨-, hnot, n, -, hpath⟩ := ((ring_reach hkeyed depth).mem_iff node).1 hnode
  exact hnot (within_zero_iff.2 (hstays hpath))

/-- A node that an edge leads to from the start is found under any positive depth. -/
theorem mem_reach_of_leads (hkeyed : Keyed nodes) {target : Node}
    (htarget : nodes.get? target.key = some target) (hne : target.key ≠ start)
    (h : Leads nodes relationships start target.key) {depth : Int} (hdepth : 0 < depth) :
    target ∈ reach nodes start relationships depth := by
  refine ((ring_reach hkeyed depth).mem_iff target).2 ⟨htarget, mt within_zero_iff.1 hne, ?_⟩
  exact ⟨1, by omega, .concat .nil h⟩

end Traversal

theorem Value.canonicalId_str (text : String) : (Value.str text).canonicalId = text :=
  String.ofList_toList

namespace Query

open TraversalText

theorem start?_query {source : String} (hne : source ≠ "") (target : String)
    (values : List Value) : (query target source values).start? = some (.str source) := by
  have hget : (query target source values).conditions.get? "start" = some (.str source) := rfl
  unfold start?
  rw [hget]
  split
  case h_1 hnone => cases hnone
  case h_2 hnull => cases hnull
  case h_3 hempty => exact absurd (Value.str.inj (Option.some.inj hempty)) hne
  case h_4 hvalue => exact hvalue.symm

theorem select_query {source : String} (hne : source ≠ "") (target : String) (values : List Value)
    (store : Store) {depth : Int} (hdepth : 0 ≤ depth) :
    (query target source values).select store depth =
      .ok (Traversal.reach store.nodes source (shownLabels values) depth) := by
  have hpath : relationships (.tuple values) = .ok (shownLabels values) := rfl
  have hsteps : stepCount (.int depth) = .ok depth.natAbs := by
    rw [stepCount, if_neg (Int.not_lt.2 hdepth)]
  have hwalk : (query target source values).walk store depth =
      .ok (Traversal.reach store.nodes (Value.str source).canonicalId (shownLabels values)
        depth.natAbs) := by
    unfold walk
    rw [start?_query hne]
    show (relationships (.tuple values) >>= fun path => stepCount (.int depth) >>= fun steps =>
      Except.ok (Traversal.reach store.nodes (Value.str source).canonicalId path steps)) = _
    rw [hpath, hsteps]
    rfl
  have hoperation : (query target source values).operation = .traverse := rfl
  rw [select, hoperation, if_neg (by decide), if_pos rfl, hwalk, Value.canonicalId_str,
    Int.natAbs_of_nonneg hdepth]

/-- The query of a request sorts, limits and sums up nothing. -/
theorem evaluate_query {source : String} (hne : source ≠ "") (target : String)
    (values : List Value) (store : Store) {depth : Int} (hdepth : 0 ≤ depth) :
    store.evaluate depth (query target source values) =
      .ok (.rows ((Traversal.reach store.nodes source (shownLabels values) depth).map
        Node.toRow)) := by
  rw [Store.evaluate, select_query hne target values store hdepth]
  have hall (nodes : List Node) : (query target source values).arrange nodes = nodes := by
    have hpasses : ∀ node ∈ nodes, node.passes (query target source values).filters = true :=
      fun _ _ => rfl
    exact List.filter_eq_self.2 hpasses
  show (query target source values).present ((query target source values).arrange _) = _
  rw [hall]
  rfl

end Query

namespace Engine

open TraversalText

/-- The labels are read, then the relationships that they are shown as are followed. -/
theorem request_of_values {engine : Engine} (hdisabled : engine.cache.enabled = false)
    (hdepth : 0 ≤ engine.settings.maxDepth) {target source : String} {labels : List String}
    (htarget : IsTarget target.toList) (hne : source ≠ "") (hmark : '"' ∉ source.toList)
    (hline : '\n' ∉ source.toList) (hlabels : labels ≠ [])
    (hwords : ∀ label ∈ labels, Literal.IsWord label.toList) {values : List Value}
    (hvalues : labels.mapM (fun label => Literal.read label.toList) = .ok values) (now : Number) :
    engine.request (render target source labels) now =
      (.ok (query target source values,
        .rows ((engine.traverse (.str source) (shownLabels values)).map Node.toRow)), engine) := by
  have htext : Query.ofText (render target source labels) = .ok (query target source values) :=
    (ofText_render_iff htarget hmark hline hlabels hwords).2 ⟨values, hvalues, rfl⟩
  obtain ⟨key, hkey⟩ := (Query.ofLiterals_of_ofText htext).exists_key
  have hexecute : engine.execute (query target source values) now =
      (.ok (.rows ((engine.traverse (.str source) (shownLabels values)).map Node.toRow)),
        engine) := by
    rw [execute_of_disabled hdisabled, answerAfresh_of_key hkey, evaluate,
      Query.evaluate_query hne target values engine.store hdepth, traverse,
      Value.canonicalId_str, Option.getD_none]
  rw [request, htext]
  simp only [hexecute]

/-- A node whose only edge leads to another one. -/
def linkedFrom (source other label : String) : Node :=
  { id := .str source, type := "t"
    edges := [{ relationship := label, target := .str other }] }

def linkedTo (other : String) : Node := { id := .str other, type := "t" }

/-- An engine without a cache to which the two nodes were added. -/
def linked (source other label : String) : Engine :=
  (start { cacheEnabled := false }).performAll
    [.add (linkedFrom source other label), .add (linkedTo other)]

section

variable (source other label : String)

@[simp] theorem key_linkedFrom : (linkedFrom source other label).key = source :=
  Value.canonicalId_str source

@[simp] theorem key_linkedTo : (linkedTo other).key = other := Value.canonicalId_str other

theorem linked_disabled : (linked source other label).cache.enabled = false := by
  rw [linked, performAll_cache_enabled]
  rfl

theorem linked_maxDepth : (linked source other label).settings.maxDepth = 2 := by
  rw [linked, performAll_settings, start_settings]

theorem maxDepth_linked_nonneg : 0 ≤ (linked source other label).settings.maxDepth := by
  rw [linked_maxDepth]
  decide

variable {source other label} (hne : other ≠ source)

include hne

theorem get?_linked (key : String) :
    (linked source other label).store.nodes.get? key =
      [linkedFrom source other label, linkedTo other].find? fun node => node.key = key := by
  have hlatest : latest [linkedFrom source other label, linkedTo other] =
      [linkedFrom source other label, linkedTo other] := by
    have hnew : ([linkedTo other].any fun later =>
        later.key = (linkedFrom source other label).key) = false := by
      simp [hne]
    rw [latest, hnew]
    rfl
  have hreflects : (linked source other label).store.Reflects
      (latest [linkedFrom source other label, linkedTo other]) :=
    reflects_performAll rfl [.add (linkedFrom source other label), .add (linkedTo other)]
  rw [hlatest] at hreflects
  exact hreflects.nodes key

theorem keyed_linked : Traversal.Keyed (linked source other label).store.nodes := by
  intro id node hget
  rw [get?_linked hne] at hget
  simpa using List.find?_some hget

theorem leads_linked_iff {target : String} {relationships : List String} :
    Traversal.Leads (linked source other label).store.nodes relationships source target ↔
      label ∈ relationships ∧ target = other := by
  have hget : (linked source other label).store.nodes.get? source =
      some (linkedFrom source other label) := by
    rw [get?_linked hne, List.find?_cons_of_pos (by simp)]
  have hkey : Edge.targetKey { relationship := label, target := .str other } = other :=
    Value.canonicalId_str other
  constructor
  · rintro ⟨node, hnode, edge, hedge, hrelationship, rfl⟩
    obtain rfl := Option.some.inj (hget.symm.trans hnode)
    obtain rfl := List.mem_singleton.1 hedge
    exact ⟨hrelationship, hkey⟩
  · rintro ⟨hlabel, rfl⟩
    exact ⟨_, hget, _, List.mem_cons_self, hlabel, hkey⟩

theorem mem_traverse_linked {relationships : List String} (hlabel : label ∈ relationships) :
    linkedTo other ∈ (linked source other label).traverse (.str source) relationships := by
  have hget : (linked source other label).store.nodes.get? (linkedTo other).key =
      some (linkedTo other) := by
    rw [get?_linked hne, List.find?_cons_of_neg (by simp [hne.symm]),
      List.find?_cons_of_pos (by simp)]
  rw [traverse, Option.getD_none, linked_maxDepth, Value.canonicalId_str]
  refine Traversal.mem_reach_of_leads (keyed_linked hne) hget ?_ ?_ (by decide)
  · rwa [key_linkedTo]
  · exact (leads_linked_iff hne).2 ⟨hlabel, key_linkedTo other⟩

theorem traverse_linked_eq_nil {relationships : List String} (hlabel : label ∉ relationships) :
    (linked source other label).traverse (.str source) relationships = [] := by
  rw [traverse, Value.canonicalId_str]
  exact Traversal.reach_eq_nil (keyed_linked hne)
    (fun _ hleads => hlabel ((leads_linked_iff hne).1 hleads).1) _

end

/-- If a request finds what the label of the only edge leads to, then the label lasts. -/
theorem lasting_of_followed {target source other label : String} {labels : List String}
    (htarget : IsTarget target.toList) (hne : source ≠ "") (hmark : '"' ∉ source.toList)
    (hline : '\n' ∉ source.toList) (hwords : ∀ label ∈ labels, Literal.IsWord label.toList)
    (hother : other ≠ source) (hlabel : label ∈ labels) {now : Number} {q : Query}
    {after : Engine} (h : (linked source other label).request (render target source labels) now =
      (.ok (q, .rows (((linked source other label).traverse (.str source) labels).map
        Node.toRow)), after)) : Literal.Lasting label.toList := by
  have hlabels : labels ≠ [] := List.ne_nil_of_mem hlabel
  refine Classical.byContradiction fun hlasting => ?_
  cases htext : Query.ofText (render target source labels) with
  | error e =>
      rw [request, htext] at h
      cases (Prod.mk.inj h).1
  | ok found =>
      obtain ⟨values, hvalues, -⟩ :=
        (ofText_render_iff htarget hmark hline hlabels hwords).1 htext
      rw [request_of_values (linked_disabled source other label)
        (maxDepth_linked_nonneg source other label) htarget hne hmark hline hlabels hwords hvalues,
        traverse_linked_eq_nil hother (notMem_shownLabels hwords hvalues hlasting)] at h
      have hrows := Answer.rows.inj (Prod.mk.inj (Except.ok.inj (Prod.mk.inj h).1)).2
      have hfound := mem_traverse_linked hother hlabel
      rw [List.map_eq_nil_iff.1 hrows.symm] at hfound
      cases hfound

/-- A request in text follows exactly the labels that stand in its brackets, on every engine, if
these last; otherwise it does not on all engines. -/
theorem labels_followed_iff {target source : String} {labels : List String}
    (htarget : IsTarget target.toList) (hne : source ≠ "") (hmark : '"' ∉ source.toList)
    (hline : '\n' ∉ source.toList) (hlabels : labels ≠ [])
    (hwords : ∀ label ∈ labels, Literal.IsWord label.toList) :
    (∀ (engine : Engine) (now : Number), engine.cache.enabled = false →
      0 ≤ engine.settings.maxDepth → ∃ q,
        engine.request (render target source labels) now =
          (.ok (q, .rows ((engine.traverse (.str source) labels).map Node.toRow)), engine)) ↔
    ∀ label ∈ labels, Literal.Lasting label.toList := by
  constructor
  · intro hfollows label hlabel
    -- The edge of the label leads to another node, which only the label itself finds.
    have hother : source ++ "x" ≠ source := by
      intro heq
      have hlength := congrArg (fun text => text.toList.length) heq
      simp at hlength
    obtain ⟨q, hq⟩ := hfollows _ (.int 0) (linked_disabled source (source ++ "x") label)
      (maxDepth_linked_nonneg source (source ++ "x") label)
    exact lasting_of_followed htarget hne hmark hline hwords hother hlabel hq
  · intro hlasting engine now hdisabled hdepth
    obtain ⟨values, hvalues, hshown⟩ := shownLabels_of_lasting hwords hlasting
    have hrequest := request_of_values hdisabled hdepth htarget hne hmark hline hlabels hwords
      hvalues now
    rw [hshown] at hrequest
    exact ⟨_, hrequest⟩

/-- Labels in capital letters last, and so does a year. A truth value does not. -/
theorem labels_followed_of_shop :
    let labels := ["HAS_ORDER", "CONTAINS", "2024"]
    IsTarget "user".toList ∧ "user:1" ≠ "" ∧ '"' ∉ "user:1".toList ∧ '\n' ∉ "user:1".toList ∧
      labels ≠ [] ∧ (∀ label ∈ "true" :: labels, Literal.IsWord label.toList) ∧
      (∀ (engine : Engine) (now : Number), engine.cache.enabled = false →
        0 ≤ engine.settings.maxDepth → ∃ q,
          engine.request (render "user" "user:1" labels) now =
            (.ok (q, .rows ((engine.traverse (.str "user:1") labels).map Node.toRow)), engine)) ∧
      ¬ ∀ (engine : Engine) (now : Number), engine.cache.enabled = false →
        0 ≤ engine.settings.maxDepth → ∃ q,
          engine.request (render "user" "user:1" ("true" :: labels)) now =
            (.ok (q, .rows ((engine.traverse (.str "user:1") ("true" :: labels)).map Node.toRow)),
              engine) := by
  intro labels
  have htarget : IsTarget "user".toList := by decide +kernel
  have hne : "user:1" ≠ "" := by decide
  have hmark : '"' ∉ "user:1".toList := by decide +kernel
  have hline : '\n' ∉ "user:1".toList := by decide +kernel
  have hlabels : labels ≠ [] := List.cons_ne_nil _ _
  have hwords : ∀ label ∈ "true" :: labels, Literal.IsWord label.toList := by decide +kernel
  have hlasting : ∀ label ∈ labels, Literal.Lasting label.toList := by decide +kernel
  refine ⟨htarget, hne, hmark, hline, hlabels, hwords, ?_, fun hfollows => ?_⟩
  · exact (labels_followed_iff htarget hne hmark hline hlabels
      (List.forall_mem_cons.1 hwords).2).2 hlasting
  · have hall := (labels_followed_iff htarget hne hmark hline (List.cons_ne_nil _ _) hwords).1
      hfollows
    exact (hall "true" List.mem_cons_self).ne_true rfl

/-- A label of digits that begin with zeros is followed as the number that it is read as, so that
its edge leads nowhere. -/
theorem zeros_not_followed :
    let a : Node := { id := .str "a", type := "t"
                      edges := [{ relationship := "007", target := .str "b" }] }
    let b : Node := { id := .str "b", type := "t" }
    let engine := (start { cacheEnabled := false }).performAll [.add a, .add b]
    let text := "GRAPH_TRAVERSE x \x7b\nWHERE \x7b\nstart: \"a\"\npath: [007]\n\x7d\n\x7d"
    b ∈ engine.traverse (.str "a") ["007"] ∧
      ∃ q, engine.request text (.int 0) = (.ok (q, .rows []), engine) := by
  intro a b engine text
  have hne : "b" ≠ "a" := by decide
  have hdepth := maxDepth_linked_nonneg "a" "b" "007"
  have hword : Literal.IsWord "007".toList := by decide +kernel
  have hread : Literal.read "007".toList = .ok (.int 7) := by
    rw [hword.read_eq]
    rfl
  have hvalues : ["007"].mapM (fun label => Literal.read label.toList) = .ok [.int 7] := by
    rw [List.mapM_cons, hread]
    rfl
  have htarget : IsTarget "x".toList := by decide +kernel
  have hsource : "a" ≠ "" ∧ '"' ∉ "a".toList ∧ '\n' ∉ "a".toList := by decide +kernel
  have hrequest := request_of_values (linked_disabled "a" "b" "007") hdepth htarget hsource.1
    hsource.2.1 hsource.2.2 (List.cons_ne_nil _ _) (List.forall_mem_singleton.2 hword) hvalues
    (.int 0)
  have hshown : shownLabels [.int 7] = ["7"] := by decide +kernel
  rw [hshown, traverse_linked_eq_nil hne (by decide)] at hrequest
  have htext : render "x" "a" ["007"] = text := by decide +kernel
  rw [htext] at hrequest
  exact ⟨mem_traverse_linked hne List.mem_cons_self, _, hrequest⟩

end Engine

end PropertyGraph
