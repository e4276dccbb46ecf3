import TypedClient.Proofs.Conversion.Kinds
import TypedClient.Proofs.Resolution.Plain
import TypedClient.Proofs.Shared.Schema
import TypedClient.Swagger.Conversion

/-!
# Both dialects make the same objects

The converters of both dialects run in lockstep on the objects that they make of a shared schema, if
they do so on the types of its properties: they claim the same names, and what one puts into the
catalog has the same plain form as what the other puts there.
-/

namespace TypedClient

open Schema (TypeRef Property Definition Catalog Conversion ReferenceKind declareProperty
  map_declareProperty)

/-! ## Catalogs -/

namespace Schema.Catalog

/-- The catalog with the plain form of all it has. -/
def plain (described : Bool) (c : Catalog) : Catalog where
  declared := c.declared.map fun _ => Definition.plain described
  hoisted := c.hoisted.map fun _ => Definition.plain described
  aliases := c.aliases.map fun _ => TypeRef.plain false
  taken := c.taken

variable {described : Bool}

theorem plain_claim (c : Catalog) (place : String) : (c.plain described).claim place =
    ((c.claim place).1, (c.claim place).2.plain described) :=
  rfl

theorem plain_hoist (c : Catalog) (d : Definition) :
    (c.hoist d).plain described = (c.plain described).hoist (d.plain described) := by
  rw [hoist, plain, OrderedMap.map_insert]
  rfl

theorem plain_declare (c : Catalog) (d : Definition) :
    (c.declare d).plain described = (c.plain described).declare (d.plain described) := by
  rw [declare, plain, OrderedMap.map_insert]
  rfl

theorem plain_addAlias (c : Catalog) (name : String) (t : TypeRef) :
    (c.addAlias name t).plain described = (c.plain described).addAlias name (t.plain false) := by
  rw [addAlias, plain, OrderedMap.map_insert]
  rfl

end Schema.Catalog

namespace Shared

variable {α β : Type} {described : Bool}

/-- Two conversions that fill catalogs of one plain form alike, or both fail. -/
abbrev Agree (described : Bool) (R : α → β → Prop) (x : Conversion α) (y : Conversion β) : Prop :=
  Lockstep (fun c c' => Catalog.plain described c' = c.plain described) (fun _ _ => True) R x y

/-- Types of one plain form. -/
abbrev SameType (listed : Bool) (t u : TypeRef) : Prop := u.plain listed = t.plain listed

abbrev SameProperties (described : Bool) (ps qs : List Property) : Prop :=
  qs.map (Property.plain described) = ps.map (Property.plain described)

abbrev SameDefinition (described : Bool) (d e : Definition) : Prop :=
  e.plain described = d.plain described

theorem target_agrees (kind : ReferenceKind) (r : String) (l l' : Location) :
    Agree described Eq (Conversion.target kind r l) (Conversion.target kind r l') := by
  unfold Conversion.target ReferenceKind.target
  split
  · exact .pure rfl
  · exact .throw trivial

theorem claim_agrees (place : String) :
    Agree described Eq (Conversion.claim place) (Conversion.claim place) := by
  intro c c' h
  have hclaim : (c'.plain described).claim place = _ := c'.plain_claim place
  rw [h, c.plain_claim] at hclaim
  obtain ⟨hname, hcatalog⟩ := Prod.mk.inj hclaim
  exact ⟨hname, hcatalog.symm⟩

variable {d e : Definition} {t u : TypeRef}

theorem hoist_agrees {listed : Bool} (h : SameDefinition described d e) :
    Agree described (SameType listed) (Conversion.hoist d) (Conversion.hoist e) := by
  refine (Lockstep.modify fun c c' hc => ?_).bind fun _ _ _ => .pure ?_
  · rw [Catalog.plain_hoist, Catalog.plain_hoist, hc, h]
  · have hname : (e.plain described).name = (d.plain described).name := congrArg Definition.name h
    exact congrArg TypeRef.reference hname

theorem declare_agrees (h : SameDefinition described d e) :
    Agree described (fun _ _ => True) (Conversion.declare d) (Conversion.declare e) := by
  refine .modify fun c c' hc => ?_
  rw [Catalog.plain_declare, Catalog.plain_declare, hc, h]

theorem addAlias_agrees (name : String) (h : SameType false t u) :
    Agree described (fun _ _ => True) (Conversion.addAlias name t) (Conversion.addAlias name u) := by
  refine .modify fun c c' hc => ?_
  rw [Catalog.plain_addAlias, Catalog.plain_addAlias, hc, h]

/-! ## Properties -/

/-- The converters make types of one plain form of a schema. -/
def Schema.Agrees (described listed : Bool) (s : Schema) : Prop := ∀ place l l',
  Agree described (SameType listed) (Swagger.typeOf s.swagger place l)
    (OpenApi.typeOf s.openApi place l')

/-- If it is to be `described`, nothing describes the schema beside a reference: OpenAPI 3 would
pass over it. -/
def Schema.Bare (described : Bool) (s : Schema) : Prop :=
  described = true → s.reference.isSome → s.description = none

variable {owner name : String} {required : List String} {l l' : Location} {s : Schema}
  {declared declared' : List Property} {parts : List Schema}

theorem propertiesOf_agrees {entries : List (String × Schema)}
    (h : ∀ e ∈ entries, e.2.Agrees described true) (hbare : ∀ e ∈ entries, e.2.Bare described)
    (hdeclared : SameProperties described declared declared') :
    Agree described (SameProperties described)
      (Swagger.propertiesOf owner required l (entries.map fun e => (e.1, e.2.swagger)) declared)
      (OpenApi.propertiesOf owner required l' (entries.map fun e => (e.1, e.2.openApi))
        declared') := by
  induction entries generalizing declared declared' with
  | nil =>
    rw [List.map_nil, List.map_nil, Swagger.propertiesOf, OpenApi.propertiesOf]
    exact .pure hdeclared
  | cons e entries ih =>
    obtain ⟨he, hrest⟩ := List.forall_mem_cons.1 h
    obtain ⟨hbare, hbares⟩ := List.forall_mem_cons.1 hbare
    rw [List.map_cons, List.map_cons, Swagger.propertiesOf, OpenApi.propertiesOf]
    refine (he _ _ _).bind fun type type' htype => ih hrest hbares ?_
    have hnullable : e.2.openApi.item?.any (·.nullable) = e.2.swagger.nullable := by
      rw [Schema.swagger_nullable, Schema.openApi_eq]
      cases e.2.reference <;> rfl
    have hdescription : (if described then e.2.openApi.item?.bind (·.description) else none) =
        if described then e.2.swagger.description else none := by
      split
      · rw [Schema.swagger_description, Schema.openApi_eq]
        cases hreference : e.2.reference with
        | none => rfl
        | some r => exact (hbare ‹_› (by rw [hreference]; rfl)).symm
      · rfl
    rw [SameProperties, map_declareProperty, map_declareProperty, hdeclared, hnullable,
      Property.plain, Property.plain]
    dsimp only
    rw [htype, hdescription]

/-! ## Objects -/

/-- An `allOf` alone. -/
def Schema.Composes (s : Schema) : Prop := s.type = none ∧ s.keywords.families = [.allOf]

theorem keeps_item (h : ¬ s.Composes) : s.keywords.Keeps s.item.kind :=
  OpenApi.Keywords.keeps_kind fun htype hfamilies => h ⟨htype, hfamilies⟩

theorem item_properties (h : ¬ s.Composes) :
    s.item.properties = (s.properties.getD []).map fun e => (e.1, e.2.openApi) := by
  have hkeeps := (keeps_item h).properties false s.description
  have hkeywords : s.keywords.properties.getD [] =
      (s.properties.getD []).map fun e => (e.1, e.2.openApi) := by
    rw [Schema.keywords]
    cases s.properties <;> rfl
  rw [← hkeywords, ← hkeeps]
  rfl

theorem item_required (h : ¬ s.Composes) : s.item.required = s.required.getD [] :=
  (keeps_item h).required false s.description

theorem parts_item (h : ¬ s.Composes) : s.item.parts l = [.own s.item] := by
  rw [OpenApi.Schema.parts]
  split
  · exact absurd ‹_› ((keeps_item h).allOf _)
  · rfl

theorem partProperties_item (h : ¬ s.Composes) (declared : List Property) :
    OpenApi.partProperties owner required l s.item declared =
      OpenApi.propertiesOf owner required l ((s.properties.getD []).map fun e => (e.1, e.2.openApi))
        declared := by
  rw [← item_properties h, OpenApi.partProperties, OpenApi.Schema.properties]
  dsimp only
  split
  · simp [*]
  · simp [*]
  · exact absurd ‹_› ((keeps_item h).allOf _)
  · rename_i hobject hgeneral _
    split
    · exact absurd ‹_› (hobject _ _ _)
    · exact absurd ‹_› (hgeneral _ _ _)
    · rw [OpenApi.propertiesOf]

/-- What an object schema without parts becomes. -/
theorem objectOf_agrees (hown : ¬ s.Composes) (hparts : s.allOf.getD [] = [])
    (h : ∀ e ∈ s.properties.getD [], e.2.Agrees described true)
    (hbare : ∀ e ∈ s.properties.getD [], e.2.Bare described) :
    Agree described (SameDefinition described) (Swagger.objectOf name s.swagger l)
      (OpenApi.objectOf name s.item l') := by
  have hrequired : s.swagger.requiredNames = s.required.getD [] := by
    simp [Swagger.Schema.requiredNames, hparts]
  have hbases : s.swagger.bases l = pure [] := by
    simp [Swagger.Schema.bases, hparts]
  rw [Swagger.objectOf, OpenApi.objectOf, hbases, hrequired, pure_bind, parts_item hown,
    partProperties_item hown]
  have hbases' : OpenApi.Part.bases [.own s.item] = pure [] := rfl
  have hrequired' : OpenApi.Part.requiredNames [.own s.item] = s.required.getD [] := by
    rw [← item_required hown]
    exact List.append_nil _
  have hdescription : OpenApi.Part.description [.own s.item] = s.swagger.objectDescription := by
    simp only [Swagger.Schema.objectDescription, Schema.swagger_description, Schema.swagger_allOf,
      hparts]
    cases hs : s.description <;> simp [OpenApi.Part.description, Schema.item, hs]
  dsimp only
  rw [hbases', hrequired', hdescription, pure_bind, Schema.swagger_properties, Schema.swagger_allOf,
    hparts]
  refine (propertiesOf_agrees h hbare rfl).bind fun own own' hown => ?_
  rw [List.map_nil, Swagger.partPropertiesOf, pure_bind]
  refine .pure ?_
  rw [SameDefinition, Definition.plain, Definition.plain, hown]

/-! ## Objects with parts -/

theorem eq_of_composes (hreference : s.reference = none) (h : s.Composes) :
    ∃ parts, s = { description := s.description, allOf := some parts } := by
  obtain ⟨htype, hfamilies⟩ := h
  have hnot (f : OpenApi.Keywords.Family) (hf : f ≠ .allOf) : s.keywords.has f = false :=
    OpenApi.Keywords.has_eq_false_of_families hfamilies hf
  have hallOf : s.keywords.has .allOf = true :=
    OpenApi.Keywords.mem_families.1 (hfamilies ▸ List.mem_singleton.2 rfl)
  have hformat := hnot .format (by decide)
  have hvalues := hnot .values (by decide)
  have hobject := hnot .object (by decide)
  have harray := hnot .array (by decide)
  cases s with
  | mk reference type format description values items properties required additional allOf =>
    simp only [Schema.keywords, OpenApi.Keywords.has] at *
    cases additional <;> cases allOf <;> simp_all

/-- A part that is a reference, or not itself made of parts alone. -/
def Schema.Flat (p : Schema) : Prop := ∀ description parts, p ≠ { description, allOf := some parts }

theorem Schema.Flat.not_composes {p : Schema} (h : p.Flat) (hreference : p.reference = none) :
    ¬ p.Composes := by
  intro hcomposes
  obtain ⟨parts, hp⟩ := eq_of_composes hreference hcomposes
  exact h _ parts hp

/-- The parts of an object that follow its own, from the `index`-th on. -/
def partsOf (l : Location) (index : Nat) : List Schema → List OpenApi.Part
  | []         => []
  | p :: parts =>
    match p.reference with
    | some r => .base r (l.item index) :: partsOf l (index + 1) parts
    | none   => .own p.item :: partsOf l (index + 1) parts

theorem partsFrom_flat (h : ∀ p ∈ parts, p.Flat) (index : Nat) :
    OpenApi.Schema.partsFrom index (parts.map Schema.openApi) l = partsOf l index parts := by
  induction parts generalizing index with
  | nil => rw [List.map_nil, OpenApi.Schema.partsFrom, partsOf]
  | cons p parts ih =>
    obtain ⟨hp, hrest⟩ := List.forall_mem_cons.1 h
    rw [List.map_cons, Schema.openApi_eq, partsOf]
    cases hreference : p.reference with
    | some r =>
      dsimp only
      rw [OpenApi.Schema.partsFrom, ih hrest]
    | none =>
      dsimp only
      rw [OpenApi.Schema.partsFrom, parts_item (hp.not_composes hreference), ih hrest]
      rfl

theorem bases_agrees (parts : List Schema) (index : Nat) :
    Agree described Eq
      ((((parts.map Schema.swagger).zipIdx index).filterMap fun e => e.1.reference.map (·, e.2)).mapM
        fun e => Conversion.target .schema e.1 (l.item e.2))
      (OpenApi.Part.bases (partsOf l' index parts)) := by
  induction parts generalizing index with
  | nil => exact .pure rfl
  | cons p parts ih =>
    rw [List.map_cons, List.zipIdx_cons, List.filterMap_cons, partsOf]
    dsimp only
    rw [Schema.swagger_reference]
    cases hreference : p.reference with
    | some r =>
      dsimp only [Option.map_some]
      rw [List.mapM_cons, OpenApi.Part.bases, List.filterMapM_cons]
      have htarget : Agree described (fun base found => found = some base)
          (id <$> Conversion.target .schema r (l.item index))
          (some <$> Conversion.target .schema r (l'.item index)) :=
        (target_agrees .schema r _ _).map fun base _ h => congrArg some h.symm
      rw [id_map] at htarget
      refine htarget.bind ?_
      rintro base _ rfl
      refine (ih (index + 1)).bind ?_
      rintro bases _ rfl
      exact .pure rfl
    | none =>
      dsimp only [Option.map_none]
      rw [OpenApi.Part.bases, List.filterMapM_cons, pure_bind]
      exact ih (index + 1)

theorem requiredNames_partsOf (h : ∀ p ∈ parts, p.Flat) (index : Nat) :
    OpenApi.Part.requiredNames (partsOf l index parts) =
      ((parts.map Schema.swagger).filter (·.reference.isNone)).flatMap (·.required) := by
  induction parts generalizing index with
  | nil => rfl
  | cons p parts ih =>
    obtain ⟨hp, hrest⟩ := List.forall_mem_cons.1 h
    have ih := ih hrest (index + 1)
    rw [OpenApi.Part.requiredNames] at ih ⊢
    rw [partsOf, List.map_cons, List.filter_cons, Schema.swagger_reference]
    cases hreference : p.reference with
    | some r => exact ih
    | none =>
      dsimp only
      rw [List.flatMap_cons, ih]
      dsimp only
      rw [item_required (hp.not_composes hreference)]
      simp

theorem description_partsOf (index : Nat) :
    OpenApi.Part.description (partsOf l index parts) =
      ((parts.map Schema.swagger).filter (·.reference.isNone)).findSome? (·.description) := by
  induction parts generalizing index with
  | nil => rfl
  | cons p parts ih =>
    have ih := ih (index + 1)
    rw [OpenApi.Part.description] at ih ⊢
    rw [partsOf, List.map_cons, List.filter_cons, Schema.swagger_reference]
    cases hreference : p.reference with
    | some r => exact ih
    | none =>
      dsimp only
      rw [List.findSome?_cons, ih]
      simp [Schema.item, List.findSome?_cons]

theorem partPropertiesOf_agrees (hflat : ∀ p ∈ parts, p.Flat)
    (h : ∀ p ∈ parts, p.reference = none → ∀ e ∈ p.properties.getD [], e.2.Agrees described true)
    (hbare : ∀ p ∈ parts, p.reference = none → ∀ e ∈ p.properties.getD [], e.2.Bare described)
    (hdeclared : SameProperties described declared declared') :
    Agree described (SameProperties described)
      (Swagger.partPropertiesOf owner required l (parts.map Schema.swagger) declared)
      (OpenApi.partsProperties owner required l' (parts.map Schema.openApi) declared') := by
  induction parts generalizing declared declared' with
  | nil =>
    rw [List.map_nil, List.map_nil, Swagger.partPropertiesOf, OpenApi.partsProperties]
    exact .pure hdeclared
  | cons p parts ih =>
    obtain ⟨hp, hflat⟩ := List.forall_mem_cons.1 hflat
    obtain ⟨hproperties, h⟩ := List.forall_mem_cons.1 h
    obtain ⟨hbares, hbare⟩ := List.forall_mem_cons.1 hbare
    rw [List.map_cons, List.map_cons, Swagger.partPropertiesOf, Schema.openApi_eq]
    dsimp only
    rw [Schema.swagger_reference, Schema.swagger_properties]
    cases hreference : p.reference with
    | some r =>
      dsimp only
      rw [OpenApi.partsProperties]
      exact ih hflat h hbare hdeclared
    | none =>
      dsimp only
      rw [OpenApi.partsProperties, partProperties_item (hp.not_composes hreference)]
      exact (propertiesOf_agrees (hproperties hreference) (hbares hreference) hdeclared).bind
        fun own own' hown => ih hflat h hbare hown

variable {description : Option String}

theorem kind_composed : (Schema.item { description, allOf := some parts }).kind =
    .allOf (parts.map Schema.openApi) :=
  rfl

theorem composed_agrees (hflat : ∀ p ∈ parts, p.Flat)
    (h : ∀ p ∈ parts, p.reference = none → ∀ e ∈ p.properties.getD [], e.2.Agrees described true)
    (hbare : ∀ p ∈ parts, p.reference = none → ∀ e ∈ p.properties.getD [], e.2.Bare described) :
    Agree described (SameDefinition described)
      (Swagger.objectOf name (Schema.swagger { description, allOf := some parts }) l)
      (OpenApi.objectOf name (Schema.item { description, allOf := some parts }) l') := by
  have hparts : (Schema.item { description, allOf := some parts }).parts l' =
      .own (Schema.item { description, allOf := some parts }) ::
        partsOf (l'.key "allOf") 0 parts := by
    rw [OpenApi.parts_allOf kind_composed, partsFrom_flat hflat]
  have hrequired : OpenApi.Part.requiredNames
      (.own (Schema.item { description, allOf := some parts }) ::
        partsOf (l'.key "allOf") 0 parts) =
      (Schema.swagger { description, allOf := some parts }).requiredNames := by
    rw [Swagger.Schema.requiredNames, Schema.swagger_required, Schema.swagger_allOf]
    exact requiredNames_partsOf hflat 0
  have hdescription : OpenApi.Part.description
      (.own (Schema.item { description, allOf := some parts }) ::
        partsOf (l'.key "allOf") 0 parts) =
      (Schema.swagger { description, allOf := some parts }).objectDescription := by
    rw [Swagger.Schema.objectDescription, Schema.swagger_description, Schema.swagger_allOf]
    have hrest : OpenApi.Part.description (partsOf (l'.key "allOf") 0 parts) = _ :=
      description_partsOf 0
    rw [OpenApi.Part.description] at hrest ⊢
    rw [List.findSome?_cons, hrest]
    cases description <;> rfl
  have hbases : OpenApi.Part.bases (.own (Schema.item { description, allOf := some parts }) ::
      partsOf (l'.key "allOf") 0 parts) =
      OpenApi.Part.bases (partsOf (l'.key "allOf") 0 parts) := by
    rw [OpenApi.Part.bases, List.filterMapM_cons, pure_bind]
    rfl
  rw [Swagger.objectOf, OpenApi.objectOf, hparts, hrequired, hdescription, hbases]
  dsimp only
  rw [Swagger.Schema.bases, Schema.swagger_allOf, Schema.swagger_properties]
  refine (bases_agrees parts 0).bind ?_
  rintro bases _ rfl
  rw [OpenApi.partProperties_allOf kind_composed, Option.getD_none, List.map_nil,
    Swagger.propertiesOf, pure_bind]
  refine (partPropertiesOf_agrees hflat h hbare rfl).bind fun made made' hmade => .pure ?_
  rw [SameDefinition, Definition.plain, Definition.plain, hmade]

theorem hoisted_agrees (h : ∀ name, Agree described (SameDefinition described)
    (Swagger.objectOf name s.swagger l) (OpenApi.objectOf name s.item l')) (listed : Bool)
    (place : String) :
    Agree described (SameType listed) (Swagger.hoisted s.swagger place l)
      (OpenApi.hoisted s.item place l') := by
  rw [Swagger.hoisted, OpenApi.hoisted]
  refine (claim_agrees place).bind ?_
  rintro name _ rfl
  exact (h name).bind fun d e hd => hoist_agrees hd

end Shared

end TypedClient
