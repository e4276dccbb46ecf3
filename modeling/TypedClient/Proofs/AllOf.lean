import TypedClient.Proofs.Conversion.Nodes
import TypedClient.Proofs.JsonText
import TypedClient.Proofs.Resolution.Acceptance

/-!
# Properties that come through `allOf`

The model of a schema should have all properties of the schema, of the inline parts of its `allOf` at
any depth, and of the models that the other parts refer to. The conversion does not go through all
of these parts: for Swagger 2.0 it stops at the parts of the schema itself, and for OpenAPI 3 at
schemas that have something else beside their `allOf`. A model has what is shown by the parts that
the conversion goes through.
-/

open Relation

namespace TypedClient

open Schema (Definition ReferenceKind)
open Source (Node)

variable {text name key : String} {src : Source} {d : Schema.Document} {t : TypeTable} {s x : Node}

namespace Source.Node

/-- The schema itself and the parts of its `allOf`, at any depth of inline parts. -/
def Reaches : Node → Node → Prop :=
  ReflTransGen fun s x => s.reference = none ∧ x ∈ s.allOf

/-- A part shows the properties that are written in it, or, if it is a reference, the fields of the
model that it leads to. -/
def Shows (t : TypeTable) (x : Node) (key : String) : Prop :=
  match x.reference with
  | none   => key ∈ x.propertyNames
  | some r => ∃ base m, ReferenceKind.schema.target? r = some base ∧
      t.models.get? base = some m ∧ key ∈ m.fields.map (·.name)

end Source.Node

/-- The table has a model for the schema that has lost none of its properties. -/
def TypeTable.KeepsAll (t : TypeTable) (name : String) (s : Node) : Prop :=
  ∃ m, t.models.get? name = some m ∧
    ∀ x key, s.Reaches x → x.Shows t key → key ∈ m.fields.map (·.name)

/-! ## Parts -/

/-- Inline parts have no `allOf` of their own in Swagger 2.0, and in OpenAPI 3 an `allOf` stands
alone wherever there is one. -/
def Source.Node.Plain : Node → Prop
  | .swagger s => s.reference = none ∧ ∀ part ∈ s.allOf, part.reference = none → part.allOf = []
  | .openApi s => ∀ schema, OpenApi.Takes s (.item schema) →
      ∀ properties required parts, schema.kind = .general properties required parts → parts = []

theorem OpenApi.Takes.trans {s x y : OrReference OpenApi.Schema} (h : Takes s x) (h' : Takes x y) :
    Takes s y := by
  induction h with
  | self => exact h'
  | part hkind hpart _ ih => exact .part hkind hpart (ih h')

/-- Of such schemas the conversion leaves no part out. -/
theorem Source.Node.Plain.takes (h : s.Plain) (hx : s.Reaches x) : s.Takes x := by
  -- along the way to the part; each step starts at a part that is gone through
  induction hx with
  | refl =>
    cases s with
    | swagger s => exact .swagger (.inl rfl)
    | openApi s => exact .openApi (.self s)
  | tail _ hstep ih =>
    obtain ⟨hreference, hy⟩ := hstep
    cases ih with
    | swagger hx =>
      obtain ⟨y, hmem, rfl⟩ := List.mem_map.1 hy
      rcases hx with rfl | hx
      · exact .swagger (.inr hmem)
      · rw [h.2 _ hx hreference] at hmem
        exact absurd hmem List.not_mem_nil
    | @openApi _ x hx =>
      cases x with
      | reference r => cases hreference
      | item schema =>
        rw [allOf] at hy
        split at hy
        · rename_i hkind
          obtain ⟨y, hmem, rfl⟩ := List.mem_map.1 hy
          exact .openApi (hx.trans (.part hkind hmem (.self y)))
        · rename_i hkind
          rw [h schema hx _ _ _ hkind] at hy
          exact absurd hy List.not_mem_nil
        · exact absurd hy List.not_mem_nil

/-- With an `allOf` such a schema is an object. -/
theorem Source.Node.Plain.isObject (h : s.Plain) (hallOf : s.allOf ≠ []) : s.isObject = true := by
  cases s with
  | swagger s =>
    have hparts : s.allOf ≠ [] := fun hnil => hallOf (by rw [allOf, hnil, List.map_nil])
    simp [Node.isObject, Swagger.Schema.isObject, h.1, hparts]
  | openApi s =>
    cases s with
    | reference r => exact absurd rfl hallOf
    | item schema =>
      rw [allOf] at hallOf
      split at hallOf
      · rename_i hkind
        simp [Node.isObject, OpenApi.OrReference.isObject, OpenApi.Schema.isObject, hkind]
      · rename_i hkind
        rw [h schema (.self _) _ _ _ hkind] at hallOf
        exact absurd rfl hallOf
      · exact absurd rfl hallOf

/-! ## Fields -/

theorem Source.Node.shows_iff : x.Shows t key ↔ (x.reference = none ∧ key ∈ x.propertyNames) ∨
    ∃ r, x.reference = some r ∧ ∃ base, ReferenceKind.schema.target? r = some base ∧
      ∃ m, t.models.get? base = some m ∧ key ∈ m.fields.map (·.name) := by
  unfold Shows
  cases x.reference <;> simp

/-- A model has the fields that the parts of its schema show. -/
theorem Source.Node.Makes.mem_fieldNames {definition : Definition} {m : ModelEntry}
    (hmakes : s.Makes definition) (htable : d.Tabulates t)
    (hget : d.definitions.get? name = some definition) (hm : t.models.get? name = some m)
    (key : String) : key ∈ m.fields.map (·.name) ↔ ∃ x, s.Takes x ∧ x.Shows t key := by
  rw [htable.mem_fieldNames hget hm, hmakes.properties]
  simp only [hmakes.bases, shows_iff, and_or_left, exists_or]
  refine or_congr_right ⟨?_, ?_⟩
  · rintro ⟨base, ⟨x, hx, r, hr, hbase⟩, m', hm', hkey⟩
    exact ⟨x, hx, r, hr, base, hbase, m', hm', hkey⟩
  · rintro ⟨x, hx, r, hr, base, hbase, m', hm', hkey⟩
    exact ⟨base, ⟨x, hx, r, hr, hbase⟩, m', hm', hkey⟩

/-- A named schema has a model if the conversion takes it for an object, and the model has what the
parts show that the conversion goes through. It has kept all if the other parts show nothing more,
and so if there are no other parts. -/
theorem allOf_fields (hload : load text = .ok d) (ht : resolve d = .ok t) :
    ∃ src, Source.read text = .ok src ∧ ∀ name s, (name, s) ∈ src.schemas → s.allOf ≠ [] →
      ((∃ m, t.models.get? name = some m) ↔ s.isObject = true) ∧
      (∀ m, t.models.get? name = some m → ∀ key,
        key ∈ m.fields.map (·.name) ↔ ∃ x, s.Takes x ∧ x.Shows t key) ∧
      (t.KeepsAll name s ↔ s.isObject = true ∧
        ∀ x key, s.Reaches x → x.Shows t key → ∃ y, s.Takes y ∧ y.Shows t key) ∧
      (s.Plain → t.KeepsAll name s) := by
  obtain ⟨src, hsrc, hdocument⟩ := bind_eq_ok_iff.1 hload
  obtain ⟨htable, -⟩ := tabulates_of_resolve ht
  refine ⟨src, hsrc, fun name s hmem hallOf => ?_⟩
  obtain ⟨hobject, hother⟩ := Source.definitions_spec hdocument hmem
  have hmodel : (∃ m, t.models.get? name = some m) ↔ s.isObject = true := by
    rw [← OrderedMap.mem_names_iff, htable.names]
    constructor
    · exact fun hname => not_not.1 fun hne => hother hne hname
    · intro hs
      obtain ⟨definition, hget, -⟩ := hobject hs
      exact OrderedMap.mem_names_of_get? hget
  have hfields (m : ModelEntry) (hm : t.models.get? name = some m) (key : String) :
      key ∈ m.fields.map (·.name) ↔ ∃ x, s.Takes x ∧ x.Shows t key := by
    obtain ⟨definition, hget, hmakes, -⟩ := hobject (hmodel.1 ⟨m, hm⟩)
    exact hmakes.mem_fieldNames htable hget hm key
  have hkeeps : t.KeepsAll name s ↔ s.isObject = true ∧
      ∀ x key, s.Reaches x → x.Shows t key → ∃ y, s.Takes y ∧ y.Shows t key := by
    constructor
    · rintro ⟨m, hm, hall⟩
      exact ⟨hmodel.1 ⟨m, hm⟩, fun x key hx hkey => (hfields m hm key).1 (hall x key hx hkey)⟩
    · rintro ⟨hs, hall⟩
      obtain ⟨m, hm⟩ := hmodel.2 hs
      exact ⟨m, hm, fun x key hx hkey => (hfields m hm key).2 (hall x key hx hkey)⟩
  refine ⟨hmodel, hfields, hkeeps, fun hplain => ?_⟩
  exact hkeeps.2 ⟨hplain.isObject hallOf, fun x key hx hkey => ⟨x, hplain.takes hx, hkey⟩⟩

open Json (record quote)

/-- Pets with a tag of their own beside an `allOf` that gives them a name. -/
def petText : String :=
  record [
    ("openapi", quote "3.0"),
    ("info", record [("title", quote "t"), ("version", quote "v")]),
    ("paths", record []),
    ("components", record [("schemas", record [("Pet", record [
      ("properties", record [("tag", record [])]),
      ("allOf", "[" ++ record [("properties", record [("name", record [])])] ++ "]")])])])]

/-- The schema of the pets as it is read. -/
theorem exists_petSchema : ∃ src s, Source.read petText = .ok src ∧ ("Pet", s) ∈ src.schemas ∧
    s.isObject = true ∧ s.reference = none ∧
    ∃ part ∈ s.allOf, part.reference = none ∧ "name" ∈ part.propertyNames := by
  have hread : (Source.read petText).map (fun src => src.schemas.map fun e =>
      (e.1, (e.2.isObject && e.2.reference.isNone),
        e.2.allOf.flatMap fun part => if part.reference.isNone then part.propertyNames else [])) =
      .ok [("Pet", true, ["name"])] := by
    rw [read_eq_documentData ?text]
    case text =>
      simp only [petText, Json.toList_record, Json.toList_quote, String.toList_append, List.map_cons,
        List.map_nil]
      rfl
    decide +kernel
  obtain ⟨src, hsrc, hschemas⟩ := map_eq_ok_iff.1 hread
  obtain ⟨⟨_, s⟩, hs, heq⟩ := List.mem_map.1 (hschemas ▸ List.mem_cons_self)
  simp only [Prod.mk.injEq, Bool.and_eq_true, Option.isNone_iff_eq_none] at heq
  obtain ⟨rfl, ⟨hobject, hreference⟩, hparts⟩ := heq
  obtain ⟨part, hpart, hname⟩ := List.mem_flatMap.1 (hparts ▸ List.mem_singleton_self "name")
  split at hname
  · rename_i hinline
    exact ⟨src, s, hsrc, hs, hobject, hreference, part, hpart, hinline, hname⟩
  · exact absurd hname List.not_mem_nil

/-- The pets have no field but the tag. -/
theorem exists_petTable : ∃ d t, load petText = .ok d ∧ resolve d = .ok t ∧
    ∀ m, t.models.get? "Pet" = some m → m.fields.map (·.name) = ["tag"] := by
  have hfields : ((load petText).bind resolve).map (fun t =>
      t.models.entries.map fun e => (e.1, e.2.fields.map (·.name))) = .ok [("Pet", ["tag"])] := by
    rw [load_eq_documentData ?text]
    case text =>
      simp only [petText, Json.toList_record, Json.toList_quote, String.toList_append, List.map_cons,
        List.map_nil]
      rfl
    decide +kernel
  obtain ⟨t, ht, hfields⟩ := map_eq_ok_iff.1 hfields
  obtain ⟨d, hd, ht⟩ := bind_eq_ok_iff.1 ht
  refine ⟨d, t, hd, ht, fun m hm => ?_⟩
  have hmem := List.mem_map_of_mem (f := fun e : String × ModelEntry =>
    (e.1, e.2.fields.map (·.name))) (OrderedMap.get?_eq_some_iff.1 hm)
  rw [hfields] at hmem
  simpa using hmem

theorem petText_modelled : ∃ d t src s, load petText = .ok d ∧ resolve d = .ok t ∧
    Source.read petText = .ok src ∧ ("Pet", s) ∈ src.schemas ∧ s.allOf ≠ [] ∧
    ∃ m, t.models.get? "Pet" = some m ∧
      ∀ key, key ∈ m.fields.map (·.name) ↔ ∃ x, s.Takes x ∧ x.Shows t key := by
  obtain ⟨d, t, hd, ht, -⟩ := exists_petTable
  obtain ⟨src, s, hsrc, hs, hobject, -, part, hpart, -⟩ := exists_petSchema
  obtain ⟨src', hsrc', hall⟩ := allOf_fields hd ht
  cases hsrc.symm.trans hsrc'
  have hallOf : s.allOf ≠ [] := List.ne_nil_of_mem hpart
  obtain ⟨hmodel, hfields, -⟩ := hall "Pet" s hs hallOf
  obtain ⟨m, hm⟩ := hmodel.2 hobject
  exact ⟨d, t, src, s, hd, ht, hsrc, hs, hallOf, m, hm, hfields m hm⟩

/-- Not every model keeps all: the pets have lost the name. -/
theorem name_lost : ¬ ∀ (text : String) (src : Source) (d : Schema.Document) (t : TypeTable),
    Source.read text = .ok src → load text = .ok d → resolve d = .ok t →
    ∀ name s, (name, s) ∈ src.schemas → s.allOf ≠ [] → t.KeepsAll name s := by
  intro h
  obtain ⟨d, t, hd, ht, hfields⟩ := exists_petTable
  obtain ⟨src, s, hsrc, hs, -, hreference, part, hpart, hinline, hname⟩ := exists_petSchema
  obtain ⟨m, hm, hkeeps⟩ := h petText src d t hsrc hd ht "Pet" s hs (List.ne_nil_of_mem hpart)
  have hshows : part.Shows t "name" := Source.Node.shows_iff.2 (.inl ⟨hinline, hname⟩)
  have hmem := hkeeps part "name" (.single ⟨hreference, hpart⟩) hshows
  rw [hfields m hm] at hmem
  exact absurd hmem (by decide)

end TypedClient
