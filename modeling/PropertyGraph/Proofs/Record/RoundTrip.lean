import PropertyGraph.Proofs.Engine.Refusal
import PropertyGraph.Proofs.Record.Lax
import PropertyGraph.Record.Basic

/-!
Nodes read from records, written as records, and stored, however records are validated. What is read
is read again when it is written, and whatever a record has in its declared type is in the node as it
is in the record. The engine accepts each such node and finds it by its identity.
-/

namespace PropertyGraph

namespace Value

/-- What an identity is kept as. -/
def IsIdentity : Value → Prop
  | .str _ | .int _ => True
  | _ => False

/-- What a property can be. -/
def IsProperty : Value → Prop
  | .bool _ | .int _ | .float _ | .str _ | .date _ | .dateTime _ => True
  | _ => False

theorem valid_identity_iff {v : Value} : Schema.identity.Valid v ↔ v.IsIdentity := by
  cases v <;> simp [Schema.identity, Schema.Valid, scalarType?, IsIdentity]

theorem valid_scalar_iff {v : Value} : Schema.scalar.Valid v ↔ v.IsProperty := by
  cases v <;> simp [Schema.scalar, Schema.Valid, scalarType?, IsProperty]

theorem isScalar_of_isProperty {v : Value} (h : v.IsProperty) : v.isScalar = true := by
  cases v with
  | null | bytes | tuple | list | dict => exact h.elim
  | _ => rfl

end Value

namespace Edge

/-- The parts of the edge stand in the fields as they are; a weight that is missing is null. -/
structure StandsIn (edge : Edge) (fields : List (Value × Value)) : Prop where
  relationship : Value.field? fields "relationship" = some (.str edge.relationship)
  target : Value.field? fields "target" = some edge.target
  weight : (Value.field? fields "weight").getD .null = edge.weight.elim .null .ofNumber

end Edge

namespace Node

/-- The parts of the node stand in the fields as they are; properties, edges and an embedding that
are missing are an empty mapping, an empty list and null. -/
structure StandsIn (node : Node) (fields : List (Value × Value)) : Prop where
  id : Value.field? fields "id" = some node.id
  type : Value.field? fields "type" = some (.str node.type)
  properties : (Value.field? fields "properties").getD (.dict []) =
    .dict (node.properties.entries.map fun entry => (.str entry.1, entry.2))
  edges : ∃ records : List (List (Value × Value)),
    (Value.field? fields "edges").getD (.list []) = .list (records.map .dict) ∧
      List.Forall₂ (fun fields edge => edge.StandsIn fields) records node.edges
  embedding : (Value.field? fields "embedding").getD .null =
    node.embedding.elim .null fun coordinates => .list (coordinates.map .ofNumber)

end Node

namespace Record

/-- The record of an edge has its fields in their declared types. -/
structure DeclaresEdge (fields : List (Value × Value)) : Prop where
  relationship : ∃ s, Value.field? fields "relationship" = some (.str s) ∧ s ≠ ""
  target : ∃ v, Value.field? fields "target" = some v ∧ v.IsIdentity
  weight : ∀ v, Value.field? fields "weight" = some v → v = .null ∨ ∃ x, v = .float x

/-- The record has its fields in their declared types; a mapping has each of its keys once. -/
structure DeclaresNode (fields : List (Value × Value)) : Prop where
  id : ∃ v, Value.field? fields "id" = some v ∧ v.IsIdentity
  type : ∃ s, Value.field? fields "type" = some (.str s) ∧ s ≠ ""
  properties : ∀ v, Value.field? fields "properties" = some v →
    ∃ bound : List (String × Value), v = .dict (bound.map fun entry => (.str entry.1, entry.2)) ∧
      (bound.map Prod.fst).Nodup ∧ ∀ entry ∈ bound, entry.2.IsProperty
  edges : ∀ v, Value.field? fields "edges" = some v →
    ∃ records : List (List (Value × Value)), v = .list (records.map .dict) ∧
      ∀ record ∈ records, DeclaresEdge record
  embedding : ∀ v, Value.field? fields "embedding" = some v →
    v = .null ∨ ∃ coordinates : List Double, v = .list (coordinates.map .float)

variable {fields : List (Value × Value)}

/-- A field is kept, or missing and kept as its default. -/
def KeepsField (fields : List (Value × Value)) (name : String) (type : Schema α) (default a : α) :
    Prop :=
  match Value.field? fields name with
  | some v => type.Keeps v a
  | none => a = default

theorem exists_keepsField {α : Type} {name : String} {type : Schema α} (default : α)
    (h : ∀ v, Value.field? fields name = some v → ∃ a, type.Keeps v a) :
    ∃ a, KeepsField fields name type default a := by
  unfold KeepsField
  cases hfield : Value.field? fields name with
  | none => exact ⟨default, rfl⟩
  | some v => exact h v hfield

end Record

theorem Schema.wellFormed_edge : edge.WellFormed := by
  simp [edge, label, identity, WellFormed, Fields.WellFormed, Fields.names, Valid, HasNull]

theorem Schema.wellFormed_node : node.WellFormed := by
  have hedge := wellFormed_edge
  simp [node, label, identity, scalar, WellFormed, Fields.WellFormed, Fields.names, Valid, HasNull,
    hedge]

namespace Record

theorem written_weight (weight : Option Double) :
    (weight.map Number.float).elim .null .ofNumber = (Schema.nullable .float).write weight := by
  cases weight <;> rfl

theorem written_embedding (embedding : Option (List Double)) :
    (embedding.map fun coordinates => coordinates.map Number.float).elim .null
      (fun coordinates => .list (coordinates.map .ofNumber)) =
        (Schema.nullable (.list .float)).write embedding := by
  cases embedding with
  | none => rfl
  | some coordinates =>
      simp only [Option.map_some, Option.elim_some, List.map_map]
      rfl

end Record

theorem Edge.toRecord_ofParts (parts : Edge.Parts) :
    (Edge.ofParts parts).toRecord = Schema.edge.write parts := by
  obtain ⟨relationship, target, weight, _⟩ := parts
  rw [ofParts, toRecord, Record.written_weight]
  rfl

theorem Node.toRecord_ofParts (parts : Node.Parts) :
    (Node.ofParts parts).toRecord = Schema.node.write parts := by
  obtain ⟨id, type, properties, edges, embedding, _⟩ := parts
  have hedges : (edges.map Edge.ofParts).map Edge.toRecord = edges.map Schema.edge.write := by
    rw [List.map_map]
    exact List.map_congr_left fun parts _ => Edge.toRecord_ofParts parts
  rw [ofParts, toRecord, hedges, Record.written_embedding]
  rfl

namespace Record

variable {fields : List (Value × Value)}

theorem one_le_length {s : String} (h : s ≠ "") : 1 ≤ s.length :=
  Nat.one_le_iff_ne_zero.2 (mt String.length_eq_zero_iff.1 h)

/-- A record of declared types is kept as some parts. -/
theorem DeclaresEdge.exists_keeps (h : DeclaresEdge fields) :
    ∃ parts, Schema.edge.Keeps (.dict fields) parts := by
  obtain ⟨s, hrelationship, hne⟩ := h.relationship
  obtain ⟨target, htarget, hidentity⟩ := h.target
  obtain ⟨weight, hweight⟩ : ∃ weight, KeepsField fields "weight" (.nullable .float) none weight :=
    exists_keepsField none fun v hv => by
      rcases h.weight v hv with rfl | ⟨x, rfl⟩
      · exact ⟨none, rfl⟩
      · exact ⟨some x, nofun, rfl⟩
  exact ⟨(s, target, weight, ()), fields, rfl, ⟨_, hrelationship, rfl, one_le_length hne⟩,
    ⟨_, htarget, rfl, Value.valid_identity_iff.2 hidentity⟩, hweight, trivial⟩

theorem exists_forall₂ {α β : Type} {R : α → β → Prop} {xs : List α}
    (h : ∀ x ∈ xs, ∃ y, R x y) : ∃ ys, List.Forall₂ R xs ys := by
  induction xs with
  | nil => exact ⟨[], .nil⟩
  | cons x rest ih =>
      obtain ⟨hx, hrest⟩ := List.forall_mem_cons.1 h
      obtain ⟨y, hy⟩ := hx
      obtain ⟨ys, hys⟩ := ih hrest
      exact ⟨y :: ys, .cons hy hys⟩

theorem DeclaresNode.exists_keeps (h : DeclaresNode fields) :
    ∃ parts, Schema.node.Keeps (.dict fields) parts := by
  obtain ⟨id, hid, hidentity⟩ := h.id
  obtain ⟨type, htype, hne⟩ := h.type
  obtain ⟨properties, hproperties⟩ : ∃ properties,
      KeepsField fields "properties" (.mapping .scalar) ∅ properties :=
    exists_keepsField ∅ fun v hv => by
      obtain ⟨bound, rfl, hdistinct, hproperty⟩ := h.properties v hv
      refine ⟨⟨bound, hdistinct⟩, _, rfl, ?_⟩
      rw [List.forall₂_map_left_iff, List.forall₂_same]
      exact fun entry hentry => ⟨rfl, rfl, Value.valid_scalar_iff.2 (hproperty entry hentry)⟩
  obtain ⟨edges, hedges⟩ : ∃ edges, KeepsField fields "edges" (.list .edge) [] edges :=
    exists_keepsField [] fun v hv => by
      obtain ⟨records, rfl, hrecords⟩ := h.edges v hv
      obtain ⟨edges, hedges⟩ := exists_forall₂ fun record hrecord =>
        (hrecords record hrecord).exists_keeps
      exact ⟨edges, _, rfl, List.forall₂_map_left_iff.2 hedges⟩
  obtain ⟨embedding, hembedding⟩ : ∃ embedding,
      KeepsField fields "embedding" (.nullable (.list .float)) none embedding :=
    exists_keepsField none fun v hv => by
      rcases h.embedding v hv with rfl | ⟨coordinates, rfl⟩
      · exact ⟨none, rfl⟩
      · refine ⟨some coordinates, nofun, _, rfl, ?_⟩
        rw [List.forall₂_map_left_iff, List.forall₂_same]
        exact fun _ _ => rfl
  exact ⟨(id, type, properties, edges, embedding, ()), fields, rfl,
    ⟨_, hid, rfl, Value.valid_identity_iff.2 hidentity⟩,
    ⟨_, htype, rfl, one_le_length hne⟩, hproperties, hedges, hembedding, trivial⟩

theorem getD_of_keepsField {α : Type} {name : String} (type : Schema α) (hplain : type.Plain)
    {default a : α} (h : KeepsField fields name type default a) :
    (Value.field? fields name).getD (type.write default) = type.write a := by
  unfold KeepsField at h
  split at h
  · next v hfield =>
    rw [hfield]
    exact type.eq_write_of_keeps hplain h
  · next hfield => rw [hfield, Option.getD_none, h]

theorem standsIn_of_keeps_edge {parts : Edge.Parts}
    (h : Schema.edge.Keeps (.dict fields) parts) : (Edge.ofParts parts).StandsIn fields := by
  obtain ⟨relationship, target, weight, _⟩ := parts
  obtain ⟨entries, hentries, ⟨_, hrelationship, rfl, -⟩, ⟨_, htarget, rfl, -⟩, hweight, -⟩ := h
  obtain rfl := Value.dict.inj hentries
  refine ⟨hrelationship, htarget, ?_⟩
  have hwritten : (Value.field? fields "weight").getD .null =
      (Schema.nullable .float).write weight :=
    getD_of_keepsField (.nullable .float) trivial hweight
  exact hwritten.trans (written_weight weight).symm

theorem exists_standsIn {items : List Value} {edges : List Edge.Parts}
    (h : List.Forall₂ Schema.edge.Keeps items edges) :
    ∃ records : List (List (Value × Value)), items = records.map .dict ∧
      List.Forall₂ (fun fields edge => edge.StandsIn fields) records (edges.map Edge.ofParts) := by
  induction h with
  | nil => exact ⟨[], rfl, .nil⟩
  | cons hfirst _ ih =>
      obtain ⟨records, rfl, hrest⟩ := ih
      obtain ⟨fields, rfl, -⟩ := id hfirst
      exact ⟨fields :: records, rfl, .cons (standsIn_of_keeps_edge hfirst) hrest⟩

theorem standsIn_of_keeps {parts : Node.Parts} (h : Schema.node.Keeps (.dict fields) parts) :
    (Node.ofParts parts).StandsIn fields := by
  obtain ⟨id, type, properties, edges, embedding, _⟩ := parts
  obtain ⟨entries, hentries, ⟨_, hid, rfl, -⟩, ⟨_, htype, rfl, -⟩, hproperties, hedges, hembedding,
    -⟩ := h
  obtain rfl := Value.dict.inj hentries
  have hproperties : (Value.field? fields "properties").getD (.dict []) =
      (Schema.mapping .scalar).write properties :=
    getD_of_keepsField (.mapping .scalar) trivial hproperties
  have hembedding : (Value.field? fields "embedding").getD .null =
      (Schema.nullable (.list .float)).write embedding :=
    getD_of_keepsField (.nullable (.list .float)) trivial hembedding
  refine ⟨hid, htype, hproperties, ?_, ?_⟩
  · split at hedges
    · next v hfield =>
      obtain ⟨items, rfl, hitems⟩ := hedges
      obtain ⟨records, rfl, hrecords⟩ := exists_standsIn hitems
      exact ⟨records, by rw [hfield, Option.getD_some], hrecords⟩
    · next hfield =>
      subst hedges
      exact ⟨[], by rw [hfield, Option.getD_none, List.map_nil], .nil⟩
  · exact hembedding.trans (written_embedding embedding).symm

end Record

namespace Node

/-- A node is read from a record exactly if its parts are validated. -/
theorem ofRecord_eq_ok_iff [Validation] {record : Value} {node : Node} :
    ofRecord record = .ok node ↔
      ∃ parts, Validation.validate Schema.node record = .accepted parts ∧ ofParts parts = node := by
  unfold ofRecord
  cases Validation.validate Schema.node record with
  | accepted parts => simp
  | refused places => exact iff_of_false nofun (by simp [Checked.refused_ne_accepted])

theorem isProperty_of_valid {parts : Node.Parts} (h : Schema.node.Valid parts) :
    ∀ entry ∈ (ofParts parts).properties.entries, entry.2.IsProperty := fun entry hentry =>
  Value.valid_scalar_iff.1 (h.2.2.1 entry hentry)

/-- The engine accepts a node whose properties are scalars, and finds it by its identity. -/
theorem exists_add_of_isProperty {node : Node}
    (h : ∀ entry ∈ node.properties.entries, entry.2.IsProperty) (engine : Engine) :
    ∃ after, engine.add node = .ok after ∧ after.store.node? node.id = some node := by
  have hscalar : node.notScalar? = none := by
    refine Option.map_eq_none_iff.2 (List.find?_eq_none.2 fun entry hentry => ?_)
    simp [Value.isScalar_of_isProperty (h entry hentry)]
  obtain ⟨store, hstore⟩ := Store.exists_add engine.policy engine.store hscalar
  refine ⟨{ engine with store }, by rw [Engine.add, hstore]; rfl, ?_⟩
  obtain ⟨-, rfl⟩ := Store.add_eq_ok_iff.1 hstore
  show (engine.store.nodes.insert node.key node).get? node.key = some node
  rw [OrderedMap.get?_insert, if_pos rfl]

/-- However records are validated: a node that was read is read again from the record that it is
written as, and the engine accepts it and finds it by its identity, as it is. A record of declared
types is read as the node that stands in it. -/
theorem ofRecord_lossless [Validation] [LawfulValidation] :
    (∀ record node, ofRecord record = .ok node →
      ofRecord node.toRecord = .ok node ∧
        ∀ engine : Engine, ∃ after, engine.add node = .ok after ∧
          after.store.node? node.id = some node) ∧
    ∀ fields, Record.DeclaresNode fields →
      ∃ node, ofRecord (.dict fields) = .ok node ∧ node.StandsIn fields := by
  refine ⟨fun record node h => ?_, fun fields h => ?_⟩
  · obtain ⟨parts, hparts, rfl⟩ := ofRecord_eq_ok_iff.1 h
    have hvalid := Schema.node.valid_of_validate Schema.wellFormed_node hparts
    refine ⟨ofRecord_eq_ok_iff.2 ⟨parts, ?_, rfl⟩,
      exists_add_of_isProperty (isProperty_of_valid hvalid)⟩
    rw [toRecord_ofParts]
    exact Schema.validate_write Schema.wellFormed_node hparts
  · obtain ⟨parts, hparts⟩ := h.exists_keeps
    exact ⟨ofParts parts,
      ofRecord_eq_ok_iff.2 ⟨parts, Schema.node.validate_of_keeps hparts, rfl⟩,
      Record.standsIn_of_keeps hparts⟩

/-- A record with an identity, a target and a weight that are converted, and one of declared types
whose properties are a truth value, a one, the text of a date and the date. -/
theorem ofRecord_lossless_of_conversions :
    let record : Value := .dict [(.str "id", .bool true), (.str "type", .str "t"),
      (.str "edges", .list [.dict [(.str "relationship", .str "R"), (.str "target", .bool false),
        (.str "weight", .str " -Inf ")]])]
    let node : Node :=
      { id := .int 1, type := "t",
        edges := [⟨"R", .int 0, some (.float (.infinite true))⟩] }
    let bound : List (String × Value) := [("paid", .bool true), ("count", .int 1),
      ("code", .str "2024-02-29"), ("day", .date ⟨2024, 2, 29, by decide⟩)]
    let fields : List (Value × Value) := [(.str "type", .str "order"), (.str "id", .str "007"),
      (.str "properties", .dict (bound.map fun entry => (.str entry.1, entry.2))),
      (.str "embedding", .list [.float .nan])]
    ofRecord record = .ok node ∧ ofRecord node.toRecord = .ok node ∧
      (∃ after, (Engine.start {}).add node = .ok after ∧ after.store.node? (.int 1) = some node) ∧
      Record.DeclaresNode fields ∧
      ∃ node, ofRecord (.dict fields) = .ok node ∧ node.StandsIn fields := by
  intro record node bound fields
  have hrecord : ofRecord record = .ok node := rfl
  have hbound : ∀ entry ∈ bound, entry.2.IsProperty := by simp [bound, Value.IsProperty]
  have hfields : Record.DeclaresNode fields :=
    { id := ⟨_, rfl, trivial⟩
      type := ⟨_, rfl, by decide⟩
      properties := fun v hv => ⟨bound, (Option.some.inj hv).symm, by decide, hbound⟩
      edges := fun v hv => (Option.some_ne_none v hv.symm).elim
      embedding := fun v hv => .inr ⟨[.nan], (Option.some.inj hv).symm⟩ }
  obtain ⟨hread, hdeclared⟩ := ofRecord_lossless
  obtain ⟨hagain, hstored⟩ := hread record node hrecord
  exact ⟨hrecord, hagain, hstored (Engine.start {}), hfields, hdeclared fields hfields⟩

end Node

end PropertyGraph
