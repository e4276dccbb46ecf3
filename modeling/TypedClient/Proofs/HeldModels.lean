import TypedClient.Proofs.ClosedTypes

/-!
# Held models

A field holds a model when its values are values of that model, or `null`. It is cyclic when the model
that it holds leads back to the model of the field, from one held model to the next.
-/

open Relation

namespace TypedClient

/-- A value of the type is a value of the model, or `null`. -/
inductive ValueType.Holds : ValueType → String → Prop where
  | model (name : String) : Holds (.model name) name
  | nullable (name : String) : Holds (.nullable (.model name)) name

theorem ValueType.holds_iff_nonNull {type : ValueType} {name : String} :
    type.Holds name ↔ type.nonNull = .model name := by
  constructor
  · intro h
    cases h <;> rfl
  · intro h
    cases type with
    | model => cases h; exact .model _
    | nullable => cases h; exact .nullable _
    | _ => cases h

theorem ValueType.Holds.mentions {type : ValueType} {name : String} (h : type.Holds name) :
    type.Mentions name := by
  cases h with
  | model => exact .model _
  | nullable => exact .nullable (.model _)

theorem ValueType.holds_iff {type : ValueType} {name : String} :
    type.Holds name ↔ type.directModel? = some name := by
  rw [holds_iff_nonNull, directModel?]
  split <;> simp_all

namespace TypeTable

variable {t : TypeTable} {a b : String} {e : ModelEntry} {f : FieldEntry}

/-- A field of the model `a` holds the model `b`. -/
def Holds (t : TypeTable) (a b : String) : Prop :=
  ∃ e ∈ t.models.values, e.name = a ∧ ∃ f ∈ e.fields, f.type.Holds b

/-- The search for cycles follows held models. -/
theorem edgeFrom_heldBy : EdgeFrom (ModelEntry.heldBy t.models.values)
    (t.models.values.map (·.name)) a b ↔ t.Holds a b := by
  have hheld {e : ModelEntry} (he : e ∈ t.models.values) :
      b ∈ ModelEntry.heldBy t.models.values e.name ↔ ∃ f ∈ e.fields, f.type.Holds b := by
    rw [ModelEntry.heldBy, ModelEntry.find?_name t.distinct_models he]
    simp only [List.mem_filterMap, ValueType.holds_iff]
  constructor
  · rintro ⟨ha, hb⟩
    obtain ⟨e, he, rfl⟩ := List.mem_map.1 ha
    exact ⟨e, he, rfl, (hheld he).1 hb⟩
  · rintro ⟨e, he, rfl, hb⟩
    exact ⟨List.mem_map_of_mem he, (hheld he).2 hb⟩

theorem isCyclic_iff : ModelEntry.isCyclic t.models.values a f = true ↔
    ∃ target, f.type.Holds target ∧ ReflTransGen t.Holds target a := by
  have hedges : EdgeFrom (ModelEntry.heldBy t.models.values) (t.models.values.map (·.name)) =
      t.Holds := by
    funext a b
    exact propext edgeFrom_heldBy
  simp only [ModelEntry.isCyclic, Option.any_eq_true, reaches_iff, hedges, List.mem_singleton,
    exists_eq_left, ValueType.holds_iff]

/-! ## Declared fields -/

/-- The fields mention models of the table only, and are nullable at their root at most. -/
def Closed (t : TypeTable) : Prop :=
  ∀ e ∈ t.models.values, ∀ f ∈ e.fields, f.type.Closed t.models.names

theorem closed_of_resolve {d : Schema.Document} (h : resolve d = .ok t) : t.Closed := by
  obtain ⟨htable, -⟩ := tabulates_of_resolve h
  intro e he f hf
  rw [htable.names]
  exact htable.closed_field he hf

variable {m m' : Model} {g : Field}

theorem closed_of_mem_declarations (h : t.Closed) (hm : m ∈ t.declarations) (hg : g ∈ m.fields) :
    g.type.Closed (t.declarations.map (·.name)) := by
  obtain ⟨e, he, rfl⟩ := List.mem_map.1 hm
  obtain ⟨f, hf, rfl⟩ := List.mem_map.1 hg
  have hclosed := h e ((ModelEntry.mem_ordered t.distinct_models).1 he) f hf
  exact ⟨fun name hname => mem_names_declarations.2 (hclosed.mentions name hname), hclosed.nullFree⟩

theorem cyclic_iff (hm : m ∈ t.declarations) (hg : g ∈ m.fields) : g.cyclic = true ↔
    ∃ target, g.type.Holds target ∧ ReflTransGen t.Holds target m.name := by
  obtain ⟨e, -, rfl⟩ := List.mem_map.1 hm
  obtain ⟨f, -, rfl⟩ := List.mem_map.1 hg
  exact isCyclic_iff

theorem holds_of_mem_declarations (hm : m ∈ t.declarations) (hg : g ∈ m.fields)
    (h : g.type.Holds b) : t.Holds m.name b := by
  obtain ⟨e, he, rfl⟩ := List.mem_map.1 hm
  obtain ⟨f, hf, rfl⟩ := List.mem_map.1 hg
  exact ⟨e, (ModelEntry.mem_ordered t.distinct_models).1 he, rfl, f, hf, h⟩

end TypeTable

end TypedClient
