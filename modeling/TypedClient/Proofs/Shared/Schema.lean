import TypedClient.OpenApi.Schema
import TypedClient.Swagger.Document

/-!
# The schema language that the dialects share

A schema in the keywords that Swagger 2.0 and OpenAPI 3 both have, as a mapping that has each
keyword at most once and with a value of the keyword's form. Each dialect makes a schema of its own
of it.
-/

namespace TypedClient.Shared

open Swagger (Additional)

/-- A schema in shared keywords. A keyword that is not written has no value. -/
structure Schema where
  reference : Option String := none
  type : Option String := none
  format : Option String := none
  description : Option String := none
  values : Option (List Data) := none
  items : Option Schema := none
  properties : Option (List (String × Schema)) := none
  required : Option (List String) := none
  additional : Additional Schema := .unsaid
  allOf : Option (List Schema) := none

namespace Schema

/-! ## Reading -/

/-- The keys of a mapping, if they are texts and none is written twice. -/
def distinctKeys? (es : List (Data × Data)) : Option (List String) := do
  let names ← es.mapM (·.1.keyText?)
  if names.Nodup then some names else none

mutual

/-- Reads a schema in shared keywords; a mapping with any other key is none. -/
def decode : Data → Option Schema
  | .mapping es => do
    let _ ← distinctKeys? es
    ofEntries es {}
  | _ => none
termination_by d => 4 * sizeOf d

/-- Reads the entries of a schema one after the other into `s`. -/
def ofEntries : List (Data × Data) → Schema → Option Schema
  | [],           s => some s
  | (k, v) :: es, s => do
    let name ← k.keyText?
    let s ← withKeyword name v s
    ofEntries es s
termination_by es => 4 * sizeOf es

/-- Reads one keyword into `s`. -/
def withKeyword (name : String) (v : Data) (s : Schema) : Option Schema :=
  match name with
  | "$ref" => do some { s with reference := some (← Decoder.text v) }
  | "type" => do some { s with type := some (← Decoder.text v) }
  | "format" => do some { s with format := some (← Decoder.text v) }
  | "description" => do some { s with description := some (← Decoder.text v) }
  | "enum" => do some { s with values := some (← Decoder.list false Decoder.json v) }
  | "items" => do some { s with items := some (← decode v) }
  | "properties" => do some { s with properties := some (← decodeDict v) }
  | "required" => do some { s with required := some (← Decoder.list false Decoder.text v) }
  | "additionalProperties" =>
    match v with
    | .bool _ => some { s with additional := .free }
    | v       => do some { s with additional := .schema (← decode v) }
  | "allOf" => do some { s with allOf := some (← decodeList v) }
  | _ => none
termination_by 4 * sizeOf v + 2

def decodeList : Data → Option (List Schema)
  | .list ds => decodeItems ds
  | _        => none
termination_by d => 4 * sizeOf d

def decodeItems : List Data → Option (List Schema)
  | []      => some []
  | d :: ds => do
    let s ← decode d
    let ss ← decodeItems ds
    some (s :: ss)
termination_by ds => 4 * sizeOf ds

def decodeDict : Data → Option (List (String × Schema))
  | .mapping es => do
    let _ ← distinctKeys? es
    decodeEntries es
  | _ => none
termination_by d => 4 * sizeOf d

def decodeEntries : List (Data × Data) → Option (List (String × Schema))
  | []           => some []
  | (n, v) :: es => do
    let name ← n.keyText?
    let s ← decode v
    let ss ← decodeEntries es
    some ((name, s) :: ss)
termination_by es => 4 * sizeOf es

end

/-! ## Forms in the dialects -/

theorem sizeOf_items {s i : Schema} (h : i ∈ s.items) : sizeOf i < sizeOf s := by
  cases s; simp_all; omega

theorem sizeOf_property {s : Schema} {ps : List (String × Schema)} {e : String × Schema}
    (hps : ps ∈ s.properties) (h : e ∈ ps) : sizeOf e.2 < sizeOf s := by
  have := List.sizeOf_lt_of_mem h
  cases e
  cases s
  simp_all
  omega

theorem sizeOf_part {s p : Schema} {ps : List Schema} (hps : ps ∈ s.allOf) (h : p ∈ ps) :
    sizeOf p < sizeOf s := by
  have := List.sizeOf_lt_of_mem h
  cases s
  simp_all
  omega

theorem sizeOf_additional {s v : Schema} (h : s.additional = .schema v) :
    sizeOf v < sizeOf s := by
  cases s; simp_all; omega

/-- The schema as Swagger 2.0 has it. -/
def swagger (s : Schema) : Swagger.Schema := {
  reference := s.reference
  type := s.type
  format := s.format
  description := s.description
  items := s.items.attach.map fun i => i.1.swagger
  properties :=
    (s.properties.attach.map fun ps => ps.1.attach.map fun e => (e.1.1, e.1.2.swagger)).getD []
  required := s.required.getD []
  additional :=
    match _h : s.additional with
    | .unsaid   => .unsaid
    | .free     => .free
    | .schema v => .schema v.swagger
  allOf := (s.allOf.attach.map fun ps => ps.1.attach.map fun p => p.1.swagger).getD []
  values := (s.values.getD []).filterMap Decoder.scalarText }
termination_by s
decreasing_by
  · exact sizeOf_items i.2
  · exact sizeOf_property ps.2 e.2
  · exact sizeOf_additional _h
  · exact sizeOf_part ps.2 p.2

/-- The schema as OpenAPI 3 has it: what stands beside a reference does not count. -/
def openApi (s : Schema) : OpenApi.OrReference OpenApi.Schema :=
  match s.reference with
  | some r => .reference r
  | none   => .item {
      nullable := false
      description := s.description
      kind := OpenApi.Keywords.kind {
        type := s.type
        format := s.format
        values := s.values
        items := s.items.attach.map fun i => i.1.openApi
        properties := s.properties.attach.map fun ps => ps.1.attach.map fun e => (e.1.1, e.1.2.openApi)
        required := s.required
        additional :=
          match _h : s.additional with
          | .unsaid   => .unsaid
          | .free     => .free
          | .schema v => .schema v.openApi
        allOf := s.allOf.attach.map fun ps => ps.1.attach.map fun p => p.1.openApi } }
termination_by s
decreasing_by
  · exact sizeOf_property ps.2 e.2
  · exact sizeOf_additional _h
  · exact sizeOf_items i.2
  · exact sizeOf_part ps.2 p.2

/-- The keywords as OpenAPI 3 reads them. -/
def keywords (s : Schema) : OpenApi.Keywords where
  type := s.type
  format := s.format
  values := s.values
  items := s.items.map openApi
  properties := s.properties.map fun ps => ps.map fun e => (e.1, e.2.openApi)
  required := s.required
  additional :=
    match s.additional with
    | .unsaid   => .unsaid
    | .free     => .free
    | .schema v => .schema v.openApi
  allOf := s.allOf.map fun ps => ps.map openApi

/-- The schema as OpenAPI 3 has it when it is no reference. -/
def item (s : Schema) : OpenApi.Schema where
  nullable := false
  description := s.description
  kind := s.keywords.kind

theorem map_attach_properties {α : Type} (s : Schema) (f : Schema → α) :
    (s.properties.attach.map fun ps => ps.1.attach.map fun e => (e.1.1, f e.1.2)) =
      s.properties.map (List.map fun e => (e.1, f e.2)) := by
  have hinner (ps : List (String × Schema)) :
      (ps.attach.map fun e => (e.1.1, f e.1.2)) = ps.map fun e => (e.1, f e.2) :=
    List.attach_map_val (f := fun e : String × Schema => (e.1, f e.2))
  simp only [hinner]
  exact Option.attach_map_val s.properties (List.map fun e => (e.1, f e.2))

theorem map_attach_allOf {α : Type} (s : Schema) (f : Schema → α) :
    (s.allOf.attach.map fun ps => ps.1.attach.map fun p => f p.1) = s.allOf.map (List.map f) := by
  simp only [List.attach_map_val]
  exact Option.attach_map_val s.allOf (List.map f)

theorem openApi_eq (s : Schema) : s.openApi =
    match s.reference with
    | some r => .reference r
    | none   => .item s.item := by
  rw [openApi, item, keywords, map_attach_properties, map_attach_allOf,
    Option.attach_map_val s.items openApi]
  cases s.reference <;> cases s.additional <;> rfl

theorem swagger_eq (s : Schema) : s.swagger = {
    reference := s.reference
    type := s.type
    format := s.format
    description := s.description
    items := s.items.map swagger
    properties := (s.properties.getD []).map fun e => (e.1, e.2.swagger)
    required := s.required.getD []
    additional :=
      match s.additional with
      | .unsaid   => .unsaid
      | .free     => .free
      | .schema v => .schema v.swagger
    allOf := (s.allOf.getD []).map swagger
    values := (s.values.getD []).filterMap Decoder.scalarText } := by
  rw [swagger, map_attach_properties, map_attach_allOf, Option.attach_map_val s.items swagger]
  cases s.properties <;> cases s.allOf <;> cases s.additional <;> rfl

@[simp] theorem swagger_reference (s : Schema) : s.swagger.reference = s.reference := by
  rw [swagger_eq]

@[simp] theorem swagger_type (s : Schema) : s.swagger.type = s.type := by rw [swagger_eq]

@[simp] theorem swagger_description (s : Schema) : s.swagger.description = s.description := by
  rw [swagger_eq]

@[simp] theorem swagger_properties (s : Schema) :
    s.swagger.properties = (s.properties.getD []).map fun e => (e.1, e.2.swagger) := by
  rw [swagger_eq]

@[simp] theorem swagger_required (s : Schema) : s.swagger.required = s.required.getD [] := by
  rw [swagger_eq]

@[simp] theorem swagger_allOf (s : Schema) : s.swagger.allOf = (s.allOf.getD []).map swagger := by
  rw [swagger_eq]

@[simp] theorem swagger_oneOf (s : Schema) : s.swagger.oneOf = [] := by rw [swagger_eq]

@[simp] theorem swagger_nullable (s : Schema) : s.swagger.nullable = false := by rw [swagger_eq]

theorem openApi_of_reference {s : Schema} {r : String} (h : s.reference = some r) :
    s.openApi = .reference r := by
  rw [openApi_eq, h]

theorem openApi_of_none {s : Schema} (h : s.reference = none) : s.openApi = .item s.item := by
  rw [openApi_eq, h]

end Schema

end TypedClient.Shared
