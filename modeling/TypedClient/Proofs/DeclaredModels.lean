import TypedClient.Proofs.Order.Declarations
import TypedClient.Proofs.Resolution.Acceptance

/-!
# Declared models

The declarations of a resolved document are those of its definitions: one for each, whatever refers to
what, and each with all that the type table has of its model.
-/

namespace TypedClient

open Schema (TypeRef Property Definition)

/-- What the type table has of a declared field. -/
def Field.entry (f : Field) : FieldEntry :=
  { name := f.name
    type := f.type
    required := f.required
    description := f.description
    allowedValues := f.allowedValues }

theorem ModelEntry.entries_declare (models : List ModelEntry) (e : ModelEntry) :
    (e.declare models).fields.map Field.entry = e.fields := by
  rw [declare, List.map_map]
  exact List.map_id _

namespace TypeTable

variable {t : TypeTable} {m : Model}

theorem perm_declarations (t : TypeTable) :
    (t.declarations.map (·.name)).Perm t.models.names := by
  rw [names_declarations, ← map_name_values]
  exact (ModelEntry.perm_ordered t.distinct_models).map _

/-- A declaration is made from the model that the table has under its name. -/
theorem exists_of_mem_declarations (hm : m ∈ t.declarations) :
    ∃ e, t.models.get? m.name = some e ∧ m = e.declare t.models.values := by
  obtain ⟨e, he, rfl⟩ := List.mem_map.1 hm
  have he := (ModelEntry.mem_ordered t.distinct_models).1 he
  obtain ⟨⟨name, e⟩, hentry, rfl⟩ := List.mem_map.1 he
  have hname : e.name = name := t.named _ hentry
  exact ⟨e, OrderedMap.get?_eq_some_iff.2 (hname ▸ hentry), rfl⟩

end TypeTable

namespace Schema.Document

variable {d : Document} {t : TypeTable}

/-- Each definition is declared once, with the description and the fields of its model. -/
theorem definitions_declared (h : resolve d = .ok t) :
    (t.declarations.map (·.name)).Nodup ∧
    (t.declarations.map (·.name)).Perm d.definitions.names ∧
    ∀ m ∈ t.declarations, ∃ definition e, d.definitions.get? m.name = some definition ∧
      t.models.get? m.name = some e ∧ d.ModelOf m.name definition e ∧
      m.description = e.description ∧ m.fields.map Field.entry = e.fields := by
  obtain ⟨htable, -⟩ := tabulates_of_resolve h
  refine ⟨t.nodup_declarations, htable.names ▸ t.perm_declarations, fun m hm => ?_⟩
  obtain ⟨e, he, hdeclared⟩ := TypeTable.exists_of_mem_declarations hm
  obtain ⟨definition, hget, hmodel⟩ := htable.definition_of_model he
  refine ⟨definition, e, hget, he, hmodel, ?_, ?_⟩
  · rw [hdeclared]
    rfl
  · rw [hdeclared]
    exact e.entries_declare _

/-- Ann knows Bob, who knows himself and a list of people like Carl. Carl extends Ann and knows her. -/
def friends : Document :=
  let property (name : String) (type : TypeRef) : Property :=
    { name, type, required := true, nullable := false, description := none }
  let definition (name : String) (bases : List String) (properties : List Property) :=
    (name, { name, description := some (name ++ "."), bases, properties : Definition })
  { definitions := .ofList [
      definition "Carl" ["Ann"] [property "ann" (.reference "Ann")],
      definition "Ann" [] [property "bob" (.reference "Bob")],
      definition "Bob" [] [property "self" (.reference "Bob"),
        property "others" (.array (.reference "Carl"))]]
    aliases := ∅
    operations := []
    baseEndpoint := none
    title := none }

/-- They all lead to each other, and each of them is declared once. -/
theorem friends_declared : ∃ t, resolve friends = .ok t ∧
    t.declarations.map (·.name) = ["Carl", "Bob", "Ann"] ∧
    (t.declarations.map (·.name)).Perm ["Carl", "Ann", "Bob"] ∧
    ∀ m ∈ t.declarations, ∃ e, t.models.get? m.name = some e ∧
      m.description = e.description ∧ m.fields.map Field.entry = e.fields := by
  have hresolve : (resolve friends).map (fun t => t.declarations.map (·.name)) =
      .ok ["Carl", "Bob", "Ann"] := by
    decide +kernel
  obtain ⟨t, ht, hnames⟩ := map_eq_ok_iff.1 hresolve
  obtain ⟨-, hperm, hmodels⟩ := definitions_declared ht
  refine ⟨t, ht, hnames, hperm, fun m hm => ?_⟩
  obtain ⟨definition, e, -, he, -, hdescription, hfields⟩ := hmodels m hm
  exact ⟨e, he, hdescription, hfields⟩

end Schema.Document

end TypedClient
