import TypedClient.Client.MethodName
import TypedClient.Schema.Catalog
import TypedClient.Schema.Selection
import TypedClient.Swagger.Document

/-! # From Swagger 2.0 to a schema document

Named object schemas become definitions and other named schemas become aliases. Object schemas
written inline are hoisted; the name of a hoisted schema comes from the place it is written in.
-/

namespace TypedClient.Swagger

open TypedClient.Schema (TypeRef Property Definition Conversion Catalog Verb Carrier
  declareProperty mergeParameters selectResponse ResponseClass)

theorem Schema.sizeOf_properties (s : Schema) : sizeOf s.properties < sizeOf s := by
  cases s; simp; omega

theorem Schema.sizeOf_allOf (s : Schema) : sizeOf s.allOf < sizeOf s := by
  cases s; simp; omega

theorem Schema.sizeOf_items {s i : Schema} (h : s.items = some i) : sizeOf i < sizeOf s := by
  cases s; simp_all; omega

theorem Schema.sizeOf_additional {s v : Schema} (h : s.additional = .schema v) :
    sizeOf v < sizeOf s := by
  cases s; simp_all; omega

/-- Whether a named schema is an object. A map is an object only if it has properties as well. -/
def Schema.isObject (s : Schema) : Bool :=
  if s.reference.isSome then false
  else if !s.properties.isEmpty || !s.allOf.isEmpty then true
  else s.type == some "object" && !(s.additional matches .schema _)

/-- Whether a reference under `allOf` stands for the whole schema. -/
def Schema.soleBase? (s : Schema) : Option String :=
  match s.allOf with
  | [part] => if s.properties.isEmpty then part.reference else none
  | _      => none

/-- The names that a schema and its inline parts list as required. -/
def Schema.requiredNames (s : Schema) : List String :=
  s.required ++ (s.allOf.filter (·.reference.isNone)).flatMap (·.required)

/-- The description of a schema, or else the first one among its inline parts. -/
def Schema.objectDescription (s : Schema) : Option String :=
  s.description.or
    ((s.allOf.filter (·.reference.isNone)).findSome? (·.description))

/-- The definitions that a schema extends. -/
def Schema.bases (s : Schema) (l : Location) : Conversion (List String) :=
  (s.allOf.zipIdx.filterMap fun (part, i) => part.reference.map (·, i)).mapM fun (r, i) =>
    Conversion.target .schema r ((l.key "allOf").item i)

mutual

/-- The type of a schema written at `l`. `place` names it if it is hoisted. -/
def typeOf (s : Schema) (place : String) (l : Location) : Conversion TypeRef :=
  match s.reference with
  | some r => .reference <$> Conversion.target .schema r l
  | none =>
    if !s.allOf.isEmpty then
      match s.soleBase? with
      | some r => .reference <$> Conversion.target .schema r ((l.key "allOf").item 0)
      | none   => hoisted s place l
    else if !s.oneOf.isEmpty || !s.anyOf.isEmpty then pure .any
    else
      match s.type with
      | some "array" =>
        match h : s.items with
        | some items =>
          have := Schema.sizeOf_items h
          .array <$> typeOf items (place ++ "Item") (l.key "items")
        | none => pure (.array .any)
      | some "object" | none =>
        if !s.properties.isEmpty then hoisted s place l
        else
          match h : s.additional with
          | .schema values =>
            have := Schema.sizeOf_additional h
            .map <$> typeOf values (place ++ "Value") (l.key "additionalProperties")
          | .free | .unsaid => pure .any
      | some name => pure (.primitive name s.format s.values)
termination_by 4 * sizeOf s + 2

/-- Makes a definition of an inline object schema and refers to it. -/
def hoisted (s : Schema) (place : String) (l : Location) : Conversion TypeRef := do
  let name ← Conversion.claim place
  Conversion.hoist (← objectOf name s l)
termination_by 4 * sizeOf s + 1

/-- The definition of an object schema: its own properties, then those of its inline parts. -/
def objectOf (name : String) (s : Schema) (l : Location) : Conversion Definition := do
  let bases ← s.bases l
  have := s.sizeOf_properties
  have := s.sizeOf_allOf
  let own ← propertiesOf name s.requiredNames l s.properties []
  let properties ← partPropertiesOf name s.requiredNames l s.allOf own
  pure { name, description := s.objectDescription, bases, properties }
termination_by 4 * sizeOf s

/-- Adds properties to those declared so far. -/
def propertiesOf (owner : String) (required : List String) (l : Location) :
    List (String × Schema) → List Property → Conversion (List Property)
  | [], declared => pure declared
  | (name, s) :: rest, declared => do
    let type ← typeOf s (owner ++ Text.upperCamel name) ((l.key "properties").key name)
    let property := {
      name, type
      required := required.contains name
      nullable := s.nullable
      description := s.description }
    propertiesOf owner required l rest (declareProperty declared property)
termination_by properties => 4 * sizeOf properties

/-- Adds the properties of the inline parts to those declared so far. -/
def partPropertiesOf (owner : String) (required : List String) (l : Location) :
    List Schema → List Property → Conversion (List Property)
  | [], declared => pure declared
  | part :: rest, declared => do
    have := part.sizeOf_properties
    let declared ←
      -- a reference is a base; only inline parts have properties to declare
      if part.reference.isSome then pure declared
      else propertiesOf owner required l part.properties declared
    partPropertiesOf owner required l rest declared
termination_by parts => 4 * sizeOf parts

end

/-! ## Named schemas -/

/-- Enters a named schema into the catalog. -/
def convertDefinition (name : String) (s : Schema) : Conversion Unit := do
  let l : Location := ⟨"definitions." ++ name⟩
  if s.isObject then Conversion.declare (← objectOf name s l)
  else Conversion.addAlias name (← typeOf s name l)

/-! ## Operations -/

/-- The type of a parameter that is not in the body. -/
def Parameter.simpleType (p : Parameter) (l : Location) : Conversion TypeRef :=
  match p.type with
  | some "array" =>
    match p.items with
    | some items => .array <$> typeOf items "Item" (l.key "items")
    | none       => pure (.array .any)
  | some name => pure (.primitive name p.format p.values)
  | none      => pure .any

/-- The parameter itself, or the shared one it refers to. -/
def Document.parameter (d : Document) (p : Parameter) (l : Location) : Conversion Parameter := do
  match p.reference with
  | none => pure p
  | some r =>
    let name ← Conversion.target .parameter r l
    match d.parameters.lookup name with
    | some shared => pure shared
    | none        => throw (.malformed l (.unknownParameter name))

/-- The response itself, or the shared one it refers to. -/
def Document.response (d : Document) (r : Response) (l : Location) : Conversion Response := do
  match r.reference with
  | none => pure r
  | some target =>
    let name ← Conversion.target .response target l
    match d.responses.lookup name with
    | some shared => pure shared
    | none        => throw (.malformed l (.unknownResponse name))

def Document.convertParameter (d : Document) (method : String) (p : Parameter) (l : Location) :
    Conversion Schema.Parameter := do
  let p ← d.parameter p l
  let some name := p.name | throw (.malformed l .namelessParameter)
  let key := p.carrier.getD ""
  let some carrier := Carrier.ofKey? key | throw (.malformed l (.unknownCarrier key))
  let type ←
    match carrier, p.schema with
    | .body, some s => typeOf s (method ++ "Body") (l.key "schema")
    | .body, none   => throw (.malformed l .bodyWithoutSchema)
    | _,     _      => p.simpleType l
  pure { name, carrier, type, required := p.required, description := p.description }

def Document.convertParameters (d : Document) (method : String) (ps : List Parameter)
    (l : Location) : Conversion (List Schema.Parameter) :=
  ps.zipIdx.mapM fun (p, i) => d.convertParameter method p (l.item i)

/-- The declared responses with references followed. -/
def Document.convertResponses (d : Document) (responses : List (String × Response))
    (l : Location) : Conversion (List (String × Response)) :=
  responses.mapM fun (key, r) => (key, ·) <$> d.response r ((l.key "responses").key key)

/-- What a method returns, by the response selected for it. -/
def returned (method : String) (responses : List (String × Response)) (l : Location) :
    Conversion (Option Schema.Response) := do
  let declared := responses.map fun (key, r) => (ResponseClass.ofKey key, r.schema.isSome)
  let some (index, optional) := selectResponse declared | pure none
  let some (key, r) := responses[index]? | pure none
  let some s := r.schema | pure none
  let l := ((l.key "responses").key key).key "schema"
  pure (some { type := ← typeOf s (method ++ "Response") l, optional })

def Document.convertOperation (d : Document) (verb : Verb) (path : String)
    (shared : List Parameter) (o : Operation) (l : Location) : Conversion Schema.Operation := do
  let method := methodName o.id verb path
  let inherited ← d.convertParameters method shared ⟨"paths." ++ path ++ ".parameters"⟩
  let own ← d.convertParameters method o.parameters (l.key "parameters")
  let responses ← d.convertResponses o.responses l
  let response ← returned method responses l
  pure {
    verb, path, response
    id := o.id
    summary := o.summary
    description := o.description
    deprecated := o.deprecated
    parameters := mergeParameters inherited own
    requestMedia := o.consumes.getD d.consumes
    responseMedia := if response.isSome then o.produces.getD d.produces else [] }

/-- Decodes a node; one of another shape is a fault at `l`. -/
def decodeAt {α : Type} (decoder : Decoder α) (v : Data) (l : Location) : Conversion α :=
  match decoder v with
  | some a => pure a
  | none   => throw (.malformed l .shape)

/-- The operations of one path in the order of its keys. -/
def Document.convertPath (d : Document) (path : String) (item : OrderedMap Data) :
    Conversion (List Schema.Operation) := do
  let l : Location := ⟨"paths." ++ path⟩
  if (item.get? "$ref").isSome then throw (.malformed l .pathItemReference)
  let shared ←
    match item.get? "parameters" with
    | some v =>
      decodeAt (TypedClient.Decoder.list true Decoder.parameter) v (l.key "parameters")
    | none   => pure []
  -- other keys of a path item are passed over
  let verbs := item.entries.filterMap fun (key, v) => (Verb.ofKey? key).map (key, ·, v)
  verbs.mapM fun (key, verb, v) => do
    let o ← decodeAt Decoder.operation v (l.key key)
    d.convertOperation verb path shared o (l.key key)

def Document.convertPaths (d : Document) : Conversion (List Schema.Operation) := do
  -- extensions are no paths
  let paths := d.paths.entries.filter fun (path, _) => !path.startsWith "x-"
  let operations ← paths.mapM fun (path, v) => do
    let item ← decodeAt Decoder.pathItem v ⟨"paths." ++ path⟩
    d.convertPath path item
  pure operations.flatten

/-- The endpoint made of scheme, host and base path, when there is a host. -/
def Document.baseEndpoint (d : Document) : Option String :=
  d.host.map fun host =>
    d.schemes.head?.getD "http" ++ "://" ++ host ++ d.basePath.getD ""

/-- Fills the catalog with the named schemas and lists the operations. -/
def Document.convert (d : Document) : Conversion (List Schema.Operation) := do
  d.definitions.entries.forM fun (name, s) => convertDefinition name s
  d.convertPaths

end TypedClient.Swagger
