import TypedClient.Data.Decoder

/-! # Swagger 2.0 documents

The parts of a Swagger 2.0 document that describe types and operations, and their decoders. Fields
that no type or operation depends on are not looked at.
-/

namespace TypedClient.Swagger

/-- What a schema says about keys that are not among its properties. -/
inductive Additional (σ : Type) where
  | unsaid
  | free
  | schema (values : σ)

structure Schema where
  reference : Option String := none
  type : Option String := none
  format : Option String := none
  description : Option String := none
  items : Option Schema := none
  properties : List (String × Schema) := []
  required : List String := []
  additional : Additional Schema := .unsaid
  allOf : List Schema := []
  oneOf : List Schema := []
  anyOf : List Schema := []
  values : List String := []
  nullable : Bool := false

/-- A parameter; one that is not in the body has its type in the fields of a schema. -/
structure Parameter where
  reference : Option String
  name : Option String
  carrier : Option String
  required : Bool
  description : Option String
  schema : Option Schema
  type : Option String
  format : Option String
  items : Option Schema
  values : List String

structure Response where
  reference : Option String
  schema : Option Schema

structure Operation where
  id : Option String
  summary : Option String
  description : Option String
  deprecated : Bool
  parameters : List Parameter
  consumes : Option (List String)
  produces : Option (List String)
  responses : List (String × Response)

structure Document where
  title : Option String
  host : Option String
  basePath : Option String
  schemes : List String
  consumes : List String
  produces : List String
  /-- Path items are decoded when they are converted. -/
  paths : OrderedMap Data
  definitions : OrderedMap Schema
  parameters : List (String × Parameter)
  responses : List (String × Response)

/-! ## Schemas

A schema is read leniently except under `additionalProperties`. There any value is allowed; one
that reads strictly as a schema is a schema, and a list may give its fields by position. -/

/-- The fields of a schema by position. -/
def Schema.positions : List String :=
  ["$ref", "type", "format", "description", "items", "properties", "required",
    "additionalProperties", "allOf", "oneOf", "anyOf", "enum", "x-nullable", "nullable"]

mutual

def Schema.decode (lenient : Bool) : Data → Option Schema
  | .mapping es => Schema.ofEntries lenient es {}
  | .null       => if lenient then some {} else none
  | .list ds    => if lenient then none else Schema.ofItems Schema.positions ds {}
  | _           => none
termination_by d => 4 * sizeOf d

/-- Reads the entries of a schema one after the other into `s`. -/
def Schema.ofEntries (lenient : Bool) : List (Data × Data) → Schema → Option Schema
  | [],           s => some s
  | (k, v) :: es, s => do
    let name ← k.keyText?
    let s ← Schema.withField lenient name v s
    Schema.ofEntries lenient es s
termination_by es => 4 * sizeOf es

def Schema.ofItems : List String → List Data → Schema → Option Schema
  | _,             [],      s => some s
  | [],            _ :: _,  _ => none
  | name :: names, d :: ds, s => do
    let s ← Schema.withField false name d s
    Schema.ofItems names ds s
termination_by _ ds => 4 * sizeOf ds

/-- Reads one field into `s`; a field of another name is passed over. -/
def Schema.withField (lenient : Bool) (name : String) (v : Data) (s : Schema) : Option Schema :=
  match name with
  | "$ref" => do some { s with reference := ← Decoder.text.optional v }
  | "type" => do some { s with type := ← Decoder.text.optional v }
  | "format" => do some { s with format := ← Decoder.text.optional v }
  | "description" => do some { s with description := ← Decoder.text.optional v }
  | "items" =>
    if v matches .null then some { s with items := none }
    else do some { s with items := some (← Schema.decode lenient v) }
  | "properties" => do some { s with properties := ← Schema.decodeDict lenient v }
  | "required" => do some { s with required := ← Decoder.list lenient Decoder.text v }
  | "additionalProperties" =>
    if v matches .null then some { s with additional := .unsaid }
    else
      -- a flag, or anything else that is no schema
      match Schema.decode false v with
      | some values => some { s with additional := .schema values }
      | none        => some { s with additional := .free }
  | "allOf" => do some { s with allOf := ← Schema.decodeList lenient v }
  | "oneOf" => do some { s with oneOf := ← Schema.decodeList lenient v }
  | "anyOf" => do some { s with anyOf := ← Schema.decodeList lenient v }
  | "enum" => do some { s with values := ← Decoder.allowedValues lenient v }
  | "x-nullable" | "nullable" => do
    let nullable ← Decoder.flag v
    -- two spellings of one field; either may say so
    some { s with nullable := s.nullable || nullable }
  | _ => some s
termination_by 4 * sizeOf v + 1

def Schema.decodeList (lenient : Bool) : Data → Option (List Schema)
  | .list ds => Schema.decodeItems lenient ds
  | .null    => if lenient then some [] else none
  | _        => none
termination_by d => 4 * sizeOf d

def Schema.decodeItems (lenient : Bool) : List Data → Option (List Schema)
  | []      => some []
  | d :: ds => do
    let s ← Schema.decode lenient d
    let ss ← Schema.decodeItems lenient ds
    some (s :: ss)
termination_by ds => 4 * sizeOf ds

def Schema.decodeDict (lenient : Bool) : Data → Option (List (String × Schema))
  | .mapping es => do some (OrderedMap.ofList (← Schema.decodeEntries lenient es)).entries
  | .null       => if lenient then some [] else none
  | _           => none
termination_by d => 4 * sizeOf d

def Schema.decodeEntries (lenient : Bool) : List (Data × Data) → Option (List (String × Schema))
  | []           => some []
  | (k, v) :: es => do
    let name ← k.keyText?
    let s ← Schema.decode lenient v
    let ss ← Schema.decodeEntries lenient es
    some ((name, s) :: ss)
termination_by es => 4 * sizeOf es

end

/-! ## The rest of a document -/

namespace Decoder

open TypedClient.Decoder

def schema : Decoder Schema := Schema.decode true

def texts : Decoder (List String) := list true text

def parameter : Decoder Parameter := fun d => do
  let fs ← fields true d
  some {
    reference := ← fs.get? "$ref" text
    name := ← fs.get? "name" text
    carrier := ← fs.get? "in" text
    required := ← fs.get "required" flag false
    description := ← fs.get? "description" text
    schema := ← fs.get? "schema" schema
    type := ← fs.get? "type" text
    format := ← fs.get? "format" text
    items := ← fs.get? "items" schema
    values := ← fs.get "enum" (allowedValues true) [] }

def response : Decoder Response := fun d => do
  let fs ← fields true d
  some {
    reference := ← fs.get? "$ref" text
    schema := ← fs.get? "schema" schema }

def operation : Decoder Operation := fun d => do
  let fs ← fields true d
  some {
    id := ← fs.get? "operationId" text
    summary := ← fs.get? "summary" text
    description := ← fs.get? "description" text
    deprecated := ← fs.get "deprecated" flag false
    parameters := ← fs.get "parameters" (list true parameter) []
    consumes := ← fs.get? "consumes" texts
    produces := ← fs.get? "produces" texts
    responses := (← fs.get "responses" (dict true response) ∅).entries }

/-- The fields of a path item, in the order of their keys. -/
def pathItem : Decoder (OrderedMap Data) := dict true some

/-- The title in the `info` of a document. -/
def title : Decoder (Option String) := fun d => do
  let fs ← fields true d
  fs.get? "title" text

def document : Decoder Document := fun d => do
  let fs ← fields true d
  let info ← fs.get? "info" title
  some {
    title := info.join
    host := ← fs.get? "host" text
    basePath := ← fs.get? "basePath" text
    schemes := ← fs.get "schemes" texts []
    consumes := ← fs.get "consumes" texts []
    produces := ← fs.get "produces" texts []
    paths := ← fs.get "paths" (dict true some) ∅
    definitions := ← fs.get "definitions" (dict true schema) ∅
    parameters := (← fs.get "parameters" (dict true parameter) ∅).entries
    responses := (← fs.get "responses" (dict true response) ∅).entries }

end Decoder

end TypedClient.Swagger
