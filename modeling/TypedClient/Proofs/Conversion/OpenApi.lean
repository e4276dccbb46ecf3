import TypedClient.Proofs.Conversion.Catalog
import TypedClient.Proofs.OpenApi.Chains
import TypedClient.Proofs.Properties

/-!
# What OpenAPI 3 schemas become

An object schema is made of itself and, if it is an `allOf` alone, of its parts, which are made of
parts again. Its definition has the properties of the inline ones and extends what the others refer
to.
-/

namespace TypedClient.OpenApi

open TypedClient.Schema (Adds Catalog Conversion Converted Definition Property ReferenceKind TypeRef
  declareProperty)
open TypedClient.Schema.Conversion (Yields Hoists)

variable {s x : OrReference Schema} {schema : Schema} {name key owner place r : String}
  {l : Location} {required : List String} {entries : List (String × OrReference Schema)}
  {declared : List Property} {parts : List (OrReference Schema)}

/-! ## Parts -/

/-- The properties that are written in the schema. -/
def Schema.properties (s : Schema) : List (String × OrReference Schema) :=
  match s.kind with
  | .object properties _ _  => properties
  | .general properties _ _ => properties
  | _                       => []

/-- `x` is one of the schemas and references that `s` is made of. -/
inductive Takes : OrReference Schema → OrReference Schema → Prop where
  | self (s : OrReference Schema) : Takes s s
  | part {schema : Schema} {parts : List (OrReference Schema)} {part x : OrReference Schema}
      (hkind : schema.kind = .allOf parts) (hpart : part ∈ parts) (hx : Takes part x) :
      Takes (.item schema) x

theorem takes_reference_iff : Takes (.reference r) x ↔ x = .reference r := by
  constructor
  · intro h
    cases h
    rfl
  · rintro rfl
    exact .self _

theorem takes_allOf_iff (hkind : schema.kind = .allOf parts) :
    Takes (.item schema) x ↔ x = .item schema ∨ ∃ part ∈ parts, Takes part x := by
  constructor
  · intro h
    cases h with
    | self => exact .inl rfl
    | part hkind' hpart hx =>
      cases hkind.symm.trans hkind'
      exact .inr ⟨_, hpart, hx⟩
  · rintro (rfl | ⟨part, hpart, hx⟩)
    · exact .self _
    · exact .part hkind hpart hx

theorem takes_item_iff (hkind : ∀ parts, schema.kind ≠ .allOf parts) :
    Takes (.item schema) x ↔ x = .item schema := by
  constructor
  · intro h
    cases h with
    | self => rfl
    | part hkind' _ _ => exact absurd hkind' (hkind _)
  · rintro rfl
    exact .self _

theorem sizeOf_parts (hkind : schema.kind = .allOf parts) : sizeOf parts < sizeOf schema := by
  have := schema.sizeOf_kind
  rw [hkind, Kind.allOf.sizeOf_spec] at this
  omega

theorem sizeOf_property {e : String × OrReference Schema} (he : e ∈ schema.properties) :
    sizeOf e.2 < sizeOf schema := by
  have hlist := List.sizeOf_lt_of_mem he
  have hentry : sizeOf e.2 < sizeOf e := by
    cases e
    simp only [Prod.mk.sizeOf_spec]
    omega
  have hkind := schema.sizeOf_kind
  unfold Schema.properties at he hlist
  split at he
  · simp only [*, Kind.object.sizeOf_spec] at hkind hlist
    omega
  · simp only [*, Kind.general.sizeOf_spec] at hkind hlist
    omega
  · exact absurd he List.not_mem_nil

/-- What a schema is made of is not larger. -/
theorem Takes.sizeOf_le (h : Takes s x) : sizeOf x ≤ sizeOf s := by
  induction h with
  | self => exact Nat.le_refl _
  | part hkind hpart _ ih =>
    have := List.sizeOf_lt_of_mem hpart
    have := sizeOf_parts hkind
    rw [OrReference.item.sizeOf_spec]
    omega

theorem Takes.sizeOf_property (h : Takes s (.item schema)) {e : String × OrReference Schema}
    (he : e ∈ schema.properties) : sizeOf e.2 < sizeOf s := by
  have hle := h.sizeOf_le
  have hlt := OpenApi.sizeOf_property he
  rw [OrReference.item.sizeOf_spec] at hle
  omega

mutual

/-- The references among the parts that the conversion goes through. -/
theorem base_mem_parts_iff (schema : Schema) (l : Location) :
    (∃ place, Part.base r place ∈ schema.parts l) ↔ Takes (.item schema) (.reference r) := by
  rw [Schema.parts]
  split
  · rename_i parts hkind
    have := sizeOf_parts hkind
    rw [takes_allOf_iff hkind, ← base_mem_partsFrom_iff 0 parts (l.key "allOf")]
    simp
  · rename_i hkind
    rw [takes_item_iff hkind]
    simp
termination_by sizeOf schema

theorem base_mem_partsFrom_iff (index : Nat) (parts : List (OrReference Schema)) (l : Location) :
    (∃ place, Part.base r place ∈ Schema.partsFrom index parts l) ↔
      ∃ part ∈ parts, Takes part (.reference r) := by
  match parts with
  | [] =>
    rw [Schema.partsFrom]
    simp
  | .reference r' :: rest =>
    have ih := base_mem_partsFrom_iff (index + 1) rest l
    rw [Schema.partsFrom]
    simp [exists_or, ih, takes_reference_iff]
  | .item schema :: rest =>
    have hschema := base_mem_parts_iff schema (l.item index)
    have ih := base_mem_partsFrom_iff (index + 1) rest l
    rw [Schema.partsFrom]
    simp [exists_or, ih, hschema]
termination_by sizeOf parts

end

/-! ## Inline parts -/

mutual

/-- The schema and the inline parts that it is made of, in their order. -/
def Schema.inlineParts (s : Schema) : List Schema :=
  s ::
    match h : s.kind with
    | .allOf parts =>
      have := sizeOf_parts h
      Schema.inlineAmong parts
    | _ => []
termination_by sizeOf s

def Schema.inlineAmong (parts : List (OrReference Schema)) : List Schema :=
  match parts with
  | []                   => []
  | .reference _ :: rest => Schema.inlineAmong rest
  | .item s :: rest      => Schema.inlineParts s ++ Schema.inlineAmong rest
termination_by sizeOf parts

end

def OrReference.inlineParts : OrReference Schema → List Schema
  | .reference _ => []
  | .item schema => schema.inlineParts

theorem Schema.inlineParts_of_allOf (hkind : schema.kind = .allOf parts) :
    schema.inlineParts = schema :: inlineAmong parts := by
  rw [inlineParts]
  split
  · rename_i hkind'
    cases hkind.symm.trans hkind'
    rfl
  · rename_i hother
    exact absurd hkind (hother _)

theorem Schema.inlineParts_of_ne (hkind : ∀ parts, schema.kind ≠ .allOf parts) :
    schema.inlineParts = [schema] := by
  rw [inlineParts]
  split
  · rename_i hkind'
    exact absurd hkind' (hkind _)
  · rfl

mutual

theorem mem_inlineParts_iff (schema : Schema) {x : Schema} :
    x ∈ schema.inlineParts ↔ Takes (.item schema) (.item x) := by
  by_cases hkind : ∃ parts, schema.kind = .allOf parts
  · obtain ⟨parts, hkind⟩ := hkind
    have := sizeOf_parts hkind
    rw [Schema.inlineParts_of_allOf hkind, takes_allOf_iff hkind, List.mem_cons,
      mem_inlineAmong_iff parts, OrReference.item.injEq]
  · have hkind := not_exists.1 hkind
    rw [Schema.inlineParts_of_ne hkind, takes_item_iff hkind, List.mem_singleton,
      OrReference.item.injEq]
termination_by sizeOf schema

theorem mem_inlineAmong_iff (parts : List (OrReference Schema)) {x : Schema} :
    x ∈ Schema.inlineAmong parts ↔ ∃ part ∈ parts, Takes part (.item x) := by
  match parts with
  | [] =>
    rw [Schema.inlineAmong]
    simp
  | .reference r :: rest =>
    have ih := mem_inlineAmong_iff rest (x := x)
    rw [Schema.inlineAmong]
    simp [ih, takes_reference_iff]
  | .item schema :: rest =>
    have hschema := mem_inlineParts_iff schema (x := x)
    have ih := mem_inlineAmong_iff rest (x := x)
    rw [Schema.inlineAmong]
    simp [ih, hschema]
termination_by sizeOf parts

end

mutual

/-- The required names are those that the inline parts list. -/
theorem requiredNames_parts (schema : Schema) (l : Location) :
    Part.requiredNames (schema.parts l) = schema.inlineParts.flatMap (·.required) := by
  rw [Schema.parts]
  split
  · rename_i parts hkind
    have := sizeOf_parts hkind
    rw [Schema.inlineParts_of_allOf hkind, List.flatMap_cons,
      ← requiredNames_partsFrom 0 parts (l.key "allOf")]
    rfl
  · rename_i hkind
    rw [Schema.inlineParts_of_ne hkind]
    rfl
termination_by sizeOf schema

theorem requiredNames_partsFrom (index : Nat) (parts : List (OrReference Schema)) (l : Location) :
    Part.requiredNames (Schema.partsFrom index parts l) =
      (Schema.inlineAmong parts).flatMap (·.required) := by
  match parts with
  | [] =>
    rw [Schema.partsFrom, Schema.inlineAmong]
    rfl
  | .reference r :: rest =>
    rw [Schema.partsFrom, Schema.inlineAmong, ← requiredNames_partsFrom (index + 1) rest l]
    rfl
  | .item schema :: rest =>
    rw [Schema.partsFrom, Schema.inlineAmong, List.flatMap_append,
      ← requiredNames_partsFrom (index + 1) rest l, ← requiredNames_parts schema (l.item index),
      Part.requiredNames, List.flatMap_append]
    rfl
termination_by sizeOf parts

end

/-! ## Definitions -/

/-- A type is made of the schema, wherever it is written. -/
def HasType (s : OrReference Schema) : Prop := ∀ place l, Hoists (typeOf s place l)

/-- The names of the properties that are written in the schema; a reference has none. -/
def OrReference.propertyNames : OrReference Schema → List String
  | .reference _ => []
  | .item schema => schema.properties.map Prod.fst

def OrReference.target? : OrReference Schema → Option String
  | .reference r => some r
  | .item _      => none

/-- The names of the properties that are written in the schema, with their nullable markers. -/
def Schema.marked (s : Schema) : List (String × Bool) :=
  s.properties.map fun e => (e.1, e.2.item?.any (·.nullable))

/-- The types of all properties are made. -/
def Typed (s : OrReference Schema) : Prop :=
  ∀ schema, Takes s (.item schema) → ∀ e ∈ schema.properties, HasType e.2

theorem Typed.of_part (h : Typed (.item schema)) (hkind : schema.kind = .allOf parts)
    (hpart : s ∈ parts) : Typed s :=
  fun _ hx => h _ (.part hkind hpart hx)

theorem propertiesOf_yields (h : ∀ e ∈ entries, HasType e.2) :
    Yields (propertiesOf owner required l entries declared)
      (Adds required (entries.map fun e => (e.1, e.2.item?.any (·.nullable))) declared) := by
  induction entries generalizing declared with
  | nil =>
    rw [propertiesOf]
    exact .pure (.refl required declared)
  | cons e entries ih =>
    obtain ⟨hs, hrest⟩ := List.forall_mem_cons.1 h
    rw [propertiesOf]
    refine (hs _ _).yields_bind fun type => (ih hrest).mono fun made hmade => ?_
    exact (Adds.declare rfl).trans hmade

mutual

/-- The properties of all inline schemas that a schema is made of are declared in their order. -/
theorem partProperties_yields (schema : Schema) (h : Typed (.item schema)) :
    ∀ declared, Yields (partProperties owner required l schema declared)
      (Adds required (schema.inlineParts.flatMap (·.marked)) declared) := by
  intro declared
  rw [partProperties]
  have hown := h schema (.self _)
  -- but for an `allOf` the schema is its only part
  have hself (hkind : ∀ parts, schema.kind ≠ .allOf parts) :
      schema.inlineParts.flatMap (·.marked) =
        schema.properties.map fun e => (e.1, e.2.item?.any (·.nullable)) := by
    rw [Schema.inlineParts_of_ne hkind, List.flatMap_singleton, Schema.marked]
  dsimp only
  split
  · rename_i properties _ _ hkind
    have hproperties : schema.properties = properties := by rw [Schema.properties, hkind]
    rw [hself (by simp [hkind]), hproperties]
    exact propertiesOf_yields (hproperties ▸ hown)
  · rename_i properties _ _ hkind
    have hproperties : schema.properties = properties := by rw [Schema.properties, hkind]
    rw [hself (by simp [hkind]), hproperties]
    exact propertiesOf_yields (hproperties ▸ hown)
  · rename_i parts hkind
    have hproperties : schema.properties = [] := by rw [Schema.properties, hkind]
    have := sizeOf_parts hkind
    rw [Schema.inlineParts_of_allOf hkind, List.flatMap_cons, Schema.marked, hproperties,
      List.map_nil, List.nil_append]
    exact partsProperties_yields parts (fun part hpart => h.of_part hkind hpart) declared
  · rename_i hobject hgeneral hallOf
    have hproperties : schema.properties = [] := by
      unfold Schema.properties
      split
      · exact absurd (by assumption) (hobject _ _ _)
      · exact absurd (by assumption) (hgeneral _ _ _)
      · rfl
    rw [hself hallOf, hproperties]
    exact .pure (.refl required declared)
termination_by sizeOf schema

theorem partsProperties_yields (parts : List (OrReference Schema)) (h : ∀ s ∈ parts, Typed s) :
    ∀ declared, Yields (partsProperties owner required l parts declared)
      (Adds required ((Schema.inlineAmong parts).flatMap (·.marked)) declared) := by
  intro declared
  match parts with
  | [] =>
    rw [partsProperties, Schema.inlineAmong]
    exact .pure (.refl required declared)
  | .reference r :: rest =>
    rw [partsProperties, Schema.inlineAmong]
    exact partsProperties_yields rest (List.forall_mem_cons.1 h).2 declared
  | .item schema :: rest =>
    obtain ⟨hschema, hrest⟩ := List.forall_mem_cons.1 h
    rw [partsProperties, Schema.inlineAmong, List.flatMap_append]
    apply (partProperties_yields schema hschema declared).bind
    intro own hown
    exact (partsProperties_yields rest hrest own).mono fun made hmade => hown.trans hmade
termination_by sizeOf parts

end

/-- The definition extends what the parts refer to. -/
theorem bases_yields (parts : List Part) :
    Yields (Part.bases parts) fun bases => ∀ base, base ∈ bases ↔
      ∃ r, (∃ place, Part.base r place ∈ parts) ∧
        ReferenceKind.schema.target? r = some base := by
  unfold Part.bases
  induction parts with
  | nil => exact .pure fun base => by simp
  | cons part parts ih =>
    rw [List.filterMapM_cons]
    cases part with
    | own schema =>
      rw [pure_bind]
      exact ih.mono fun bases hbases base => by simp [hbases]
    | base r place =>
      have htarget := Yields.map (R := fun b => ∃ a, b = some a ∧
        ReferenceKind.schema.target? r = some a) (Yields.target .schema r place)
        fun a ha => ⟨a, rfl, ha⟩
      apply htarget.bind
      intro b hb
      obtain ⟨a, rfl, ha⟩ := hb
      refine ih.bind fun bases hbases => .pure fun base => ?_
      simp [hbases, exists_or, or_and_right, ha, eq_comm]

def Makes (s : OrReference Schema) (d : Definition) : Prop :=
  d.MadeOf (Takes s) (·.target?) (·.propertyNames)

/-- The properties of the definition are declared by the inline parts. -/
def Marks (s : OrReference Schema) (d : Definition) : Prop :=
  Adds (s.inlineParts.flatMap (·.required)) (s.inlineParts.flatMap (·.marked)) [] d.properties

theorem objectOf_yields (h : Typed (.item schema)) :
    Yields (objectOf name schema l) fun d =>
      d.name = name ∧ Makes (.item schema) d ∧ Marks (.item schema) d := by
  rw [objectOf]
  apply (bases_yields _).bind
  intro bases hbases
  apply (partProperties_yields schema h []).bind
  intro properties hproperties
  refine .pure ⟨rfl, ⟨fun base => ?_, fun key => ?_⟩, ?_⟩
  · simp only [hbases, base_mem_parts_iff]
    constructor
    · rintro ⟨r, hr, hbase⟩
      exact ⟨_, hr, r, rfl, hbase⟩
    · rintro ⟨x, hx, r, hr, hbase⟩
      cases x with
      | reference r' =>
        cases hr
        exact ⟨r, hx, hbase⟩
      | item => cases hr
  · rw [hproperties.mem_names, List.map_nil, or_iff_left List.not_mem_nil, List.map_flatMap,
      List.mem_flatMap]
    simp only [mem_inlineParts_iff, Schema.marked, List.map_map, Function.comp_def]
    constructor
    · rintro ⟨x, hx, hkey⟩
      exact ⟨_, hx, rfl, hkey⟩
    · rintro ⟨x, hx, hinline, hkey⟩
      cases x with
      | reference r => cases hinline
      | item x => exact ⟨x, hx, hkey⟩
  · rw [requiredNames_parts] at hproperties
    exact hproperties

/-! ## Types -/

theorem hoists_hoisted (h : Typed (.item schema)) : Hoists (hoisted schema place l) := by
  rw [hoisted]
  exact .claimed fun name => (objectOf_yields h).mono fun d hd => hd.1

theorem hasType (s : OrReference Schema) : HasType s := by
  match s with
  | .reference r =>
    intro place l
    rw [typeOf]
    exact .map (.target _ _ _)
  | .item schema =>
    -- all that a type is made from is smaller than the schema
    have htyped : Typed (.item schema) := fun x hx e he =>
      have := hx.sizeOf_property he
      hasType e.2
    have hsize := schema.sizeOf_kind
    intro place l
    rw [typeOf, inlineType]
    dsimp only
    split
    · exact .pure _
    · exact .pure _
    · exact .pure _
    · exact .pure _
    · exact .pure _
    · rename_i items hkind
      have : sizeOf items < sizeOf schema := by
        rw [hkind, Kind.array.sizeOf_spec, Option.some.sizeOf_spec] at hsize
        omega
      exact .map (hasType items _ _)
    · rename_i values hkind
      have : sizeOf values < sizeOf schema := by
        rw [hkind, Kind.object.sizeOf_spec, Additional.schema.sizeOf_spec] at hsize
        omega
      exact .map (hasType values _ _)
    · exact .pure _
    · exact hoists_hoisted htyped
    · exact .map (.target _ _ _)
    · exact hoists_hoisted htyped
    · exact .pure _
    · exact hoists_hoisted htyped
    · exact .pure _
    · exact .pure _
    · exact .pure _
termination_by sizeOf s
decreasing_by
  · exact this
  · rw [OrReference.item.sizeOf_spec]
    omega
  · rw [OrReference.item.sizeOf_spec]
    omega

/-! ## Operations -/

theorem hoists_follow {α : Type} (components : List (String × OrReference α))
    (kind : ReferenceKind) (l : Location) (item : OrReference α) :
    Hoists (follow components kind l item) :=
  (Yields.of_unchanged (wp_follow components kind l item)).hoists

theorem hoists_parameter (p : Parameter) (method : String) (l : Location) :
    Hoists (p.convert method l) := by
  unfold Parameter.convert
  dsimp only
  split
  · exact .bind (hasType _ _ _) fun type => .pure _
  · split
    · exact .bind (hasType _ _ _) fun type => .pure _
    · exact .bind (.pure _) fun type => .pure _

theorem hoists_convertBody (d : Document) (method : String) (body : OrReference RequestBody)
    (l : Location) : Hoists (d.convertBody method body l) := by
  unfold Document.convertBody
  refine .bind (hoists_follow _ _ _ _) fun body => ?_
  dsimp only
  split
  · exact .pure _
  · split
    · exact .bind (hasType _ _ _) fun type => .pure _
    · exact .bind (.pure _) fun type => .pure _

theorem hoists_returned (method : String) (responses : List (String × Response)) (l : Location) :
    Hoists (returned method responses l) := by
  unfold returned
  dsimp only
  split
  · split
    · split
      · exact .bind (hasType _ _ _) fun type => .pure _
      · exact .pure _
    · exact .pure _
  · exact .pure _

theorem hoists_convertParameters (d : Document) (method : String) (ps : List (OrReference Parameter))
    (l : Location) : Hoists (d.convertParameters method ps l) :=
  .mapM fun _ _ => .bind (hoists_follow _ _ _ _) fun _ => hoists_parameter _ _ _

theorem convertOperation_yields (d : Document) (verb : Schema.Verb) (path : String)
    (shared : List (OrReference Parameter)) (o : Operation) :
    Yields (d.convertOperation verb path shared o) (·.call = (path, verb)) := by
  have hresponses (l : Location) : Hoists (d.convertResponses o.responses l) :=
    .mapM fun _ _ => .map (hoists_follow _ _ _ _)
  unfold Document.convertOperation
  refine (hoists_convertParameters _ _ _ _).yields_bind fun inherited => ?_
  refine (hoists_convertParameters _ _ _ _).yields_bind fun own => ?_
  dsimp only
  split
  · exact (hoists_convertBody _ _ _ _).yields_bind fun body => (hresponses _).yields_bind
      fun responses => (hoists_returned _ _ _).yields_bind fun response => .pure rfl
  · exact (Hoists.pure _).yields_bind fun body => (hresponses _).yields_bind
      fun responses => (hoists_returned _ _ _).yields_bind fun response => .pure rfl

/-- The paths and verbs of the operations of one path. -/
def callsAt : String × OrReference PathItem → List (String × Schema.Verb)
  | (_, .reference _) => []
  | (path, .item item) => item.operations.map fun e => (path, e.1)

/-- A path item is written inline, and has its operations in their order. -/
theorem convertPath_yields (d : Document) (e : String × OrReference PathItem) :
    Yields (d.convertPath e.1 e.2) fun made =>
      (∃ item, e.2 = .item item) ∧ made.map (·.call) = callsAt e := by
  obtain ⟨path, item⟩ := e
  cases item with
  | reference r => exact .throw _
  | item item =>
    have hoperations : Yields (d.convertPath path (.item item)) fun made =>
        made.map (·.call) = item.operations.map fun e => (path, e.1) :=
      .mapM_map fun _ _ => convertOperation_yields _ _ _ _ _
    exact hoperations.mono fun made hmade => ⟨⟨item, rfl⟩, hmade⟩

/-- The paths and verbs of the operations, path by path. -/
def Document.calls (d : Document) : List (String × Schema.Verb) := d.paths.entries.flatMap callsAt

theorem convertPaths_yields (d : Document) : Yields (do
    let operations ← d.paths.entries.mapM fun e => d.convertPath e.1 e.2
    pure operations.flatten) fun made =>
      (∀ e ∈ d.paths.entries, ∃ item, e.2 = .item item) ∧ made.map (·.call) = d.calls := by
  refine (Yields.mapM fun e _ => convertPath_yields d e).bind fun made hmade => .pure ?_
  obtain ⟨hinline, hcalls⟩ := (List.forall₂_and_left _ _).1 hmade
  refine ⟨hinline, ?_⟩
  rw [List.map_flatten, Document.calls, List.flatMap]
  congr 1
  rw [← List.forall₂_eq_eq_eq, List.forall₂_map_left_iff, List.forall₂_map_right_iff]
  exact hcalls.flip

/-! ## Documents -/

/-- Whether a named schema is an object that is written out. -/
def OrReference.isObject : OrReference Schema → Bool
  | .reference _ => false
  | .item schema => schema.isObject

theorem convertSchema_spec {schemas : OrderedMap (OrReference Schema)}
    {done : List (String × OrReference Schema)} {c : Catalog} (hmem : (name, s) ∈ schemas.entries)
    (h : Converted schemas (·.isObject = true) (fun s d => Makes s d ∧ Marks s d) done c) :
    wp (convertSchema name s) c
      (fun _ => Converted schemas (·.isObject = true) (fun s d => Makes s d ∧ Marks s d)
        (done ++ [(name, s)]))
      (fun _ _ => True) := by
  unfold convertSchema
  dsimp only
  split
  · rename_i schema hs
    obtain ⟨hitem, hobject⟩ := Option.filter_eq_some_iff.1 hs
    cases s with
    | reference r => cases hitem
    | item schema =>
      cases hitem
      rw [wp_bind]
      refine (objectOf_yields (fun _ _ e _ => hasType e.2) c).mono (fun d c' hd => ?_)
        fun _ _ h => h
      exact (h.hoists hd.1).declare hmem hobject hd.2.2 hd.2.1
  · rename_i hs
    have hobject : ¬ s.isObject = true := by
      cases s with
      | reference r => exact Bool.false_ne_true
      | item schema => simpa [OrReference.item?, OrReference.isObject] using hs
    rw [wp_bind]
    refine (hasType s name _ c).mono (fun type c' htype => ?_) fun _ _ h => h
    exact (h.hoists htype.1).addAlias hmem hobject type

/-- In the end all named schemas are converted, and the operations are listed. -/
theorem convert_spec (d : Document) :
    wp d.convert (Catalog.withNames d.components.schemas.names)
      (fun operations c => Converted d.components.schemas (·.isObject = true)
        (fun s d => Makes s d ∧ Marks s d) d.components.schemas.entries c ∧
          (∀ e ∈ d.paths.entries, ∃ item, e.2 = .item item) ∧ operations.map (·.call) = d.calls)
      (fun _ _ => True) := by
  have hschemas : wp (d.components.schemas.entries.forM fun e => convertSchema e.1 e.2)
      (Catalog.withNames d.components.schemas.names)
      (fun _ => Converted d.components.schemas (·.isObject = true)
        (fun s d => Makes s d ∧ Marks s d) d.components.schemas.entries) (fun _ _ => True) :=
    wp_forM (.withNames _ _) fun done e c he hc => convertSchema_spec he hc
  rw [Document.convert, wp_bind]
  refine hschemas.mono (fun _ c hc => ?_) fun _ _ h => h
  exact (convertPaths_yields d c).mono (fun _ c' h => ⟨hc.hoists h.1, h.2⟩) fun _ _ h => h

end TypedClient.OpenApi
