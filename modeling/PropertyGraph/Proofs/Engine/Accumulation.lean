import Mathlib.Data.List.Basic
import PropertyGraph.Proofs.Engine.Lookup
import PropertyGraph.Proofs.Store.Accumulation

/-!
Look-ups after any run of an engine that keeps filings: a type or a value finds all identities under
which a node was ever added with it since the last clearing, and shows the node that was added last
under each.
-/

namespace PropertyGraph

namespace Engine

theorem policy_eq_keep {engine : Engine} (h : engine.settings.replaceEntries = false) :
    engine.policy = .keep := by
  simp [policy, h]

/-- After every run the store holds all filings of the run. -/
theorem accumulates_performAll {settings : Settings} (hkeep : settings.replaceEntries = false)
    (actions : List Action) :
    ((start settings).performAll actions).store.Accumulates (additions actions) := by
  refine additions_induction (motive := fun added store => store.Accumulates added)
    Store.accumulates_empty ?_ actions
  intro added store node h hscalar
  rw [policy_eq_keep hkeep]
  exact h.add hscalar

/-- After every run, under either policy, the stored nodes are filed. -/
theorem filed_performAll (settings : Settings) (actions : List Action) :
    ((start settings).performAll actions).store.Filed := by
  cases hreplace : settings.replaceEntries with
  | true => exact (reflects_performAll hreplace actions).filed
  | false => exact (accumulates_performAll hreplace actions).filed

/-- Where filings are kept, a type finds the identities of all nodes that were ever added with it, a
property those of all nodes that ever had it at the value; each identity comes once, in the place of
its first such node, and stands for the node that was added last. So a stored node is always found
under its type and under its values, unless a part of a value is NaN. -/
theorem lookups_eq_accumulated {settings : Settings} (hkeep : settings.replaceEntries = false)
    (actions : List Action) :
    let store := ((start settings).performAll actions).store
    let added := additions actions
    (∀ id, store.node? id = current added id.canonicalId) ∧
      (∀ type, (store.nodesOfType type).map some =
        (identities (fun node => node.type = type) added).map (current added)) ∧
      (∀ name value, (store.nodesWith name value).map some =
        (identities (Node.hasProperty name value) added).map (current added)) ∧
      ∀ node ∈ store.nodes.values, node ∈ store.nodesOfType node.type ∧
        ∀ name value, node.properties.get? name = some value → ¬ value.HasPart Value.IsNan →
          node ∈ store.nodesWith name value := by
  intro store added
  have h : store.Accumulates added := accumulates_performAll hkeep actions
  refine ⟨fun id => h.nodes _, h.nodesOfType, h.nodesWith, fun node hnode => ?_⟩
  obtain ⟨⟨key, _⟩, hentry, rfl⟩ := List.mem_map.1 hnode
  have hget := OrderedMap.get?_eq_some_iff.2 hentry
  exact ⟨h.filed.mem_nodesOfType hget, fun name value hvalue hnan =>
    h.filed.mem_nodesWith_of_property hget hvalue hnan⟩

/-- A draft that became a post is still found as a draft and in its old state, where it comes first;
as a post it comes after the other one. -/
theorem lookups_of_kept_filings :
    let draft : Node :=
      { id := .str "a", type := "draft", properties := .ofList [("state", .str "old")] }
    let other : Node :=
      { id := .str "b", type := "post", properties := .ofList [("state", .str "old")] }
    let post : Node :=
      { id := .str "a", type := "post", properties := .ofList [("state", .float .nan)] }
    let settings : Settings := { replaceEntries := false }
    let store := ((start settings).performAll [.add draft, .add other, .add post]).store
    settings.replaceEntries = false ∧ store.node? (.str "a") = some post ∧
      store.nodesOfType "draft" = [post] ∧ store.nodesOfType "post" = [other, post] ∧
      store.nodesWith "state" (.str "old") = [post, other] ∧
      store.nodesWith "state" (.float .nan) = [] := by
  intro draft other post settings store
  have hkeep : settings.replaceEntries = false := rfl
  obtain ⟨hid, htype, hwith, -⟩ :=
    lookups_eq_accumulated hkeep [.add draft, .add other, .add post]
  have hadded : additions [.add draft, .add other, .add post] = [draft, other, post] := rfl
  rw [hadded] at hid htype hwith
  have hsome : Function.Injective (List.map (some : Node → Option Node)) :=
    List.map_injective_iff.2 fun _ _ h => Option.some.inj h
  refine ⟨hkeep, (hid _).trans ?_, hsome ((htype _).trans ?_), hsome ((htype _).trans ?_),
    hsome ((hwith _ _).trans ?_), hsome ((hwith _ _).trans ?_)⟩ <;> rfl

end Engine

end PropertyGraph
