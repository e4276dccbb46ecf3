import TypedClient.Proofs.Resolution.Inclusion
import TypedClient.Proofs.Resolution.Transparency

/-!
# Reordered documents

What a document has in its definitions and aliases is looked up by name. So their order decides in
which order models are found, and nothing else: two documents in which the same is found under each
name have the same types, the same flattened definitions and in the end the same models.
-/

namespace TypedClient

open Schema (TypeRef Property Definition)

namespace Schema.Document

variable {d d' : Document} {t t' : TypeTable} {name : String} {type : TypeRef} {v : ValueType}
  {definition : Definition} {p : Property} {f f' : FieldEntry} {m m' : ModelEntry}
  {ps : List Property}

/-! ## What a table holds -/

theorem ModelOf.unique (hm : d.ModelOf name definition m) (hm' : d.ModelOf name definition m') :
    m = m' := by
  obtain ⟨ps, fields, hps, hfields, rfl⟩ := hm
  obtain ⟨ps', fields', hps', hfields', rfl⟩ := hm'
  cases hps.unique hps'
  have hequal : List.Forall₂ Eq fields fields' :=
    forall₂_join hfields hfields' fun _ _ _ => FieldOf.unique
  rw [List.forall₂_eq_eq_eq] at hequal
  rw [hequal]

theorem Tabulates.get?_models_eq_some_iff (h : d.Tabulates t) : t.models.get? name = some m ↔
    ∃ definition, d.definitions.get? name = some definition ∧ d.ModelOf name definition m := by
  refine ⟨h.definition_of_model, ?_⟩
  rintro ⟨definition, hget, hm⟩
  obtain ⟨m', hm', hmodel⟩ := h.model_of_definition hget
  rw [hm', hm.unique hmodel]

theorem Tabulates.get?_aliases_eq_some_iff (h : d.Tabulates t) :
    t.aliases.get? name = some v ↔ d.DenotesAlias name v := by
  refine ⟨h.aliases name v, ?_⟩
  rintro ⟨type, halias, hv⟩
  have hknown := h.known name (OrderedMap.mem_names_of_get? halias)
  obtain ⟨w, hw⟩ := OrderedMap.mem_names_iff.1 hknown
  obtain ⟨type', halias', htype'⟩ := h.aliases name w hw
  cases halias.symm.trans halias'
  rw [hw, hv.unique htype']

/-! ## Equal lookups -/

/-- In both documents the same is found under each name, and they have the same operations. -/
structure Agrees (d d' : Document) : Prop where
  definitions : ∀ name, d'.definitions.get? name = d.definitions.get? name
  aliases : ∀ name, d'.aliases.get? name = d.aliases.get? name
  operations : d'.operations = d.operations

namespace Agrees

variable (h : d.Agrees d')

include h

theorem symm : d'.Agrees d :=
  ⟨fun name => (h.definitions name).symm, fun name => (h.aliases name).symm, h.operations.symm⟩

theorem mem_names (name : String) : name ∈ d'.definitions.names ↔ name ∈ d.definitions.names := by
  rw [OrderedMap.mem_names_iff, OrderedMap.mem_names_iff, h.definitions]

theorem knows (name : String) : d'.knows name = d.knows name := by
  have haliases : name ∈ d'.aliases.names ↔ name ∈ d.aliases.names := by
    rw [OrderedMap.mem_names_iff, OrderedMap.mem_names_iff, h.aliases]
  rw [Bool.eq_iff_iff, knows_iff, knows_iff, h.mem_names, haliases]

theorem includedIn : d.IncludedIn d' :=
  ⟨fun name _ hget => (h.definitions name).trans hget, fun name _ halias => (h.aliases name).trans halias,
    fun name _ => (h.mem_names name).1⟩

theorem resolvable (hd : d.Resolvable) : d'.Resolvable := by
  refine ⟨fun name type halias => ?_, fun name hname => ?_, fun o ho part type htype name hlast => ?_⟩
  · rw [h.aliases] at halias
    obtain ⟨v, hv⟩ := hd.aliases name type halias
    exact ⟨v, h.includedIn.denotes hv⟩
  · rw [h.mem_names] at hname
    obtain ⟨ps, hps, htypes⟩ := hd.definitions name hname
    refine ⟨ps, h.includedIn.flattens hps, fun p hp => ?_⟩
    obtain ⟨v, hv⟩ := htypes p hp
    exact ⟨v, h.includedIn.denotes hv⟩
  · rw [h.operations] at ho
    rw [h.knows]
    exact hd.operations o ho part type htype name hlast

theorem exists_resolve_iff : (∃ t, resolve d = .ok t) ↔ ∃ t', resolve d' = .ok t' := by
  rw [Document.exists_resolve_iff, Document.exists_resolve_iff]
  exact ⟨h.resolvable, h.symm.resolvable⟩

theorem get?_models (ht : d.Tabulates t) (ht' : d'.Tabulates t') (name : String) :
    t'.models.get? name = t.models.get? name := by
  apply Option.ext
  intro m
  rw [ht.get?_models_eq_some_iff, ht'.get?_models_eq_some_iff, h.definitions]
  exact exists_congr fun _ => and_congr_right fun _ => ⟨h.symm.includedIn.modelOf, h.includedIn.modelOf⟩

theorem get?_aliases (ht : d.Tabulates t) (ht' : d'.Tabulates t') (name : String) :
    t'.aliases.get? name = t.aliases.get? name := by
  apply Option.ext
  intro v
  rw [ht.get?_aliases_eq_some_iff, ht'.get?_aliases_eq_some_iff]
  exact ⟨h.symm.includedIn.denotesAlias, h.includedIn.denotesAlias⟩

end Agrees

end Schema.Document

/-- Types are mapped to the same by tables in which the same is found under each name. -/
theorem TypeTable.typeOf_congr {t t' : TypeTable}
    (hmodels : ∀ name, t'.models.get? name = t.models.get? name)
    (haliases : ∀ name, t'.aliases.get? name = t.aliases.get? name) (type : TypeRef) :
    t'.typeOf type = t.typeOf type := by
  induction type with
  | primitive => rfl
  | any => rfl
  | array items ih => rw [typeOf, typeOf, ih]
  | map values ih => rw [typeOf, typeOf, ih]
  | reference name =>
    have hcontains : t'.models.contains name = t.models.contains name := by
      rw [Bool.eq_iff_iff, OrderedMap.contains_iff, OrderedMap.contains_iff,
        OrderedMap.mem_names_iff, OrderedMap.mem_names_iff, hmodels]
    rw [typeOf, typeOf, referenceType, referenceType, hcontains, haliases]

namespace Schema.Document

variable {d d' : Document}

/-! ## Reordered maps -/

/-- The documents have the same definitions, aliases and operations; definitions and aliases may be
in another order. -/
structure Reorders (d d' : Document) : Prop where
  definitions : d'.definitions.entries.Perm d.definitions.entries
  aliases : d'.aliases.entries.Perm d.aliases.entries
  operations : d'.operations = d.operations

theorem Reorders.agrees (h : d.Reorders d') : d.Agrees d' :=
  ⟨OrderedMap.get?_eq_of_perm h.definitions, OrderedMap.get?_eq_of_perm h.aliases, h.operations⟩

/-- The order of definitions and aliases decides neither whether a document is resolved, nor what a
model is or what a type is mapped to. -/
theorem resolve_reordered (h : d.Reorders d') :
    ((∃ t, resolve d = .ok t) ↔ ∃ t', resolve d' = .ok t') ∧
    ∀ t t', resolve d = .ok t → resolve d' = .ok t' →
      (∀ name, t'.models.get? name = t.models.get? name) ∧
      ∀ type, t'.typeOf type = t.typeOf type := by
  refine ⟨h.agrees.exists_resolve_iff, fun t t' ht ht' => ?_⟩
  obtain ⟨htable, -⟩ := tabulates_of_resolve ht
  obtain ⟨htable', -⟩ := tabulates_of_resolve ht'
  have hmodels := h.agrees.get?_models htable htable'
  exact ⟨hmodels, TypeTable.typeOf_congr hmodels (h.agrees.get?_aliases htable htable')⟩

/-- Cats are animals, and both have names. -/
def catDefinitions : List (String × Definition) :=
  let definition (name : String) (bases : List String) (property : Property) :=
    (name, { name, description := none, bases, properties := [property] : Definition })
  let property (name : String) (type : TypeRef) : Property :=
    { name, type, required := true, nullable := false, description := none }
  [definition "Animal" [] (property "names" (.reference "Names")),
    definition "Cat" ["Animal"] (property "prey" (.array (.reference "Animal")))]

/-- A list of names, each of which is a text. -/
def nameAliases : List (String × TypeRef) :=
  [("Name", .primitive "string" none []), ("Names", .array (.reference "Name"))]

/-- The cats with definitions and aliases in the given orders. -/
def cats (definitions : List (String × Definition)) (aliases : List (String × TypeRef)) : Document :=
  { definitions := .ofList definitions
    aliases := .ofList aliases
    operations := []
    baseEndpoint := none
    title := none }

theorem cats_reorders :
    (cats catDefinitions nameAliases).Reorders (cats catDefinitions.reverse nameAliases.reverse) := by
  refine ⟨?_, ?_, rfl⟩
  · dsimp only [cats]
    rw [OrderedMap.entries_ofList (by decide), OrderedMap.entries_ofList (by decide)]
    exact List.reverse_perm _
  · dsimp only [cats]
    rw [OrderedMap.entries_ofList (by decide), OrderedMap.entries_ofList (by decide)]
    exact List.reverse_perm _

/-- Backwards the cats come before the animals that they extend and that they eat, and each of them
still has the names of an animal first. -/
theorem cats_reordered : ∃ t t', resolve (cats catDefinitions nameAliases) = .ok t ∧
    resolve (cats catDefinitions.reverse nameAliases.reverse) = .ok t' ∧
    t.models.names = ["Animal", "Cat"] ∧ t'.models.names = ["Cat", "Animal"] ∧
    t'.models.get? "Cat" = t.models.get? "Cat" ∧
    t'.typeOf (.reference "Names") = .ok (.array (.primitive .text)) := by
  have hresolve : (resolve (cats catDefinitions nameAliases)).map (fun t =>
      (t.models.names, (t.typeOf (.reference "Names")).toOption)) =
      .ok (["Animal", "Cat"], some (.array (.primitive .text))) := by
    decide +kernel
  have hresolve' : (resolve (cats catDefinitions.reverse nameAliases.reverse)).map
      (·.models.names) = .ok ["Cat", "Animal"] := by
    decide +kernel
  obtain ⟨t, ht, heq⟩ := map_eq_ok_iff.1 hresolve
  obtain ⟨hnames, htype⟩ := Prod.mk.inj heq
  obtain ⟨t', ht', hnames'⟩ := map_eq_ok_iff.1 hresolve'
  obtain ⟨hmodels, htypes⟩ := (resolve_reordered cats_reorders).2 t t' ht ht'
  refine ⟨t, t', ht, ht', hnames, hnames', hmodels "Cat", ?_⟩
  rw [htypes]
  cases hv : t.typeOf (.reference "Names") with
  | ok v =>
    rw [hv] at htype
    cases htype
    rfl
  | error e =>
    rw [hv] at htype
    cases htype

end Schema.Document

end TypedClient
