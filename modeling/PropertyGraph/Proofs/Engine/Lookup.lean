import Mathlib.Data.List.Induction
import PropertyGraph.Proofs.Engine.Run
import PropertyGraph.Proofs.Store.Lookup

/-!
Look-ups after any run of an engine that replaces filings: they search the history of the run, the
last node of each identity that was added since the last clearing.
-/

namespace PropertyGraph

theorem Store.add_of_notScalar (policy : ReplacePolicy) (store : Store) {node : Node}
    (h : node.notScalar?.isNone = false) : ∃ e, store.add policy node = .error e := by
  cases hnode : node.notScalar? with
  | none => simp [hnode] at h
  | some e => exact ⟨e, add_eq_error_iff.2 hnode⟩

namespace Engine

theorem policy_eq_replace {engine : Engine} (h : engine.settings.replaceEntries = true) :
    engine.policy = .replace := by
  simp [policy, h]

/-- What holds of no nodes and an empty store, and goes on holding when a node is accepted, holds
of the additions of a run and the store after it. -/
theorem additions_induction {settings : Settings} {motive : List Node → Store → Prop}
    (hempty : motive [] ∅)
    (hadd : ∀ added store node, motive added store → node.notScalar? = none →
      ∃ after, store.add (start settings).policy node = .ok after ∧ motive (added ++ [node]) after)
    (actions : List Action) :
    motive (additions actions) ((start settings).performAll actions).store := by
  induction actions using List.reverseRecOn with
  | nil => exact hempty
  | append_singleton actions action ih =>
      rw [performAll_concat, additions_concat]
      have hpolicy : ((start settings).performAll actions).policy = (start settings).policy := by
        rw [policy, performAll_settings, policy]
      cases action with
      | add node =>
          rw [perform_add, hpolicy, additionsAfter]
          cases hnode : node.notScalar?.isNone with
          | false =>
              obtain ⟨e, he⟩ := Store.add_of_notScalar (start settings).policy
                ((start settings).performAll actions).store hnode
              rw [he]
              exact ih
          | true =>
              obtain ⟨after, hafter, hmotive⟩ :=
                hadd _ _ node ih (Option.isNone_iff_eq_none.1 hnode)
              rw [hafter, if_pos rfl]
              exact hmotive
      | execute q now done =>
          rw [perform_execute_store]
          exact ih
      | clear => exact hempty

/-- After every run the store reflects the history of the run. -/
theorem reflects_performAll {settings : Settings} (hreplace : settings.replaceEntries = true)
    (actions : List Action) :
    ((start settings).performAll actions).store.Reflects (latest (additions actions)) := by
  refine additions_induction (motive := fun added store => store.Reflects (latest added))
    Store.reflects_empty ?_ actions
  intro added store node h hscalar
  rw [policy_eq_replace hreplace, latest_append]
  exact h.add hscalar

/-- Look-ups are searches of the history: by identity, by type and by property they find the nodes
that were added last, in the order in which they were added, and each node once. A NaN is the same
as no value, so it finds nothing. -/
theorem lookups_eq_history {settings : Settings} (hreplace : settings.replaceEntries = true)
    (actions : List Action) :
    let store := ((start settings).performAll actions).store
    let history := latest (additions actions)
    (history.map Node.key).Nodup ∧
      (∀ id, store.node? id = history.find? fun node => node.key = id.canonicalId) ∧
      (∀ type, store.nodesOfType type = history.filter fun node => node.type = type) ∧
      ∀ name value, store.nodesWith name value = history.filter (Node.hasProperty name value) := by
  have h := reflects_performAll hreplace actions
  exact ⟨h.distinct, h.node?, h.nodesOfType, h.nodesWith⟩

/-- A draft that was added again as a post is no draft any more and comes after the other post. -/
theorem lookups_after_replacement :
    let draft : Node :=
      { id := .str "a", type := "draft", properties := .ofList [("state", .str "old")] }
    let other : Node :=
      { id := .str "b", type := "post", properties := .ofList [("state", .bool true)] }
    let post : Node :=
      { id := .str "a", type := "post", properties := .ofList [("state", .str "new")] }
    let store := ((start {}).performAll [.add draft, .add other, .add post]).store
    ({} : Settings).replaceEntries = true ∧
      store.node? (.str "a") = some post ∧ store.nodesOfType "draft" = [] ∧
      store.nodesOfType "post" = [other, post] ∧ store.nodesWith "state" (.str "old") = [] ∧
      store.nodesWith "state" (.str "new") = [post] ∧ store.nodesWith "state" (.int 1) = [] := by
  intro draft other post store
  have hreplace : ({} : Settings).replaceEntries = true := rfl
  obtain ⟨-, hid, htype, hwith⟩ :=
    lookups_eq_history hreplace [.add draft, .add other, .add post]
  have hhistory : latest (additions [.add draft, .add other, .add post]) = [other, post] := by
    rfl
  rw [hhistory] at hid htype hwith
  refine ⟨hreplace, (hid _).trans ?_, (htype _).trans ?_, (htype _).trans ?_, (hwith _ _).trans ?_,
    (hwith _ _).trans ?_, (hwith _ _).trans ?_⟩ <;> rfl

end Engine

end PropertyGraph
