import TypedClient.Client.MethodName
import TypedClient.OpenApi.Document
import TypedClient.Schema.Catalog
import TypedClient.Schema.Media
import TypedClient.Schema.Selection

/-! # From OpenAPI 3 to a schema document

Named object schemas become definitions and other named schemas become aliases. Object schemas
written inline are hoisted. References to components are followed to the component.
-/

namespace TypedClient.OpenApi

open TypedClient.Schema (TypeRef Property Definition Conversion ReferenceKind Verb Carrier
  declareProperty mergeParameters selectResponse ResponseClass isJsonMedia)

theorem Schema.sizeOf_kind (s : Schema) : sizeOf s.kind < sizeOf s := by
  cases s
  simp only [Schema.mk.sizeOf_spec]
  omega

/-- Whether a named schema is an object. A map is an object only if it has properties as well. -/
def Schema.isObject (s : Schema) : Bool :=
  match s.kind with
  | .object properties _ additional => !properties.isEmpty || !(additional matches .schema _)
  | .allOf _                        => true
  | .general properties _ _         => !properties.isEmpty
  | _                               => false

/-! ## Parts of an object -/

/-- An object schema is made of itself, the schemas it extends and the inline parts of its `allOf`,
which are made of parts again. -/
inductive Part where
  | own (s : Schema)
  | base (reference : String) (place : Location)

mutual

/-- The parts of a schema in the order in which they are written. -/
def Schema.parts (s : Schema) (l : Location) : List Part :=
  .own s ::
    match h : s.kind with
    | .allOf parts =>
      have : sizeOf parts < sizeOf s := by
        have := s.sizeOf_kind
        simp only [h, Kind.allOf.sizeOf_spec] at this
        omega
      Schema.partsFrom 0 parts (l.key "allOf")
    | _ => []
termination_by sizeOf s

def Schema.partsFrom (index : Nat) (parts : List (OrReference Schema)) (l : Location) :
    List Part :=
  match parts with
  | []                   => []
  | .reference r :: rest => .base r (l.item index) :: Schema.partsFrom (index + 1) rest l
  | .item s :: rest      => Schema.parts s (l.item index) ++ Schema.partsFrom (index + 1) rest l
termination_by sizeOf parts

end

/-- The names that a schema itself lists as required. -/
def Schema.required (s : Schema) : List String :=
  match s.kind with
  | .object _ required _  => required
  | .general _ required _ => required
  | _                     => []

/-- The names that the parts list as required. -/
def Part.requiredNames (parts : List Part) : List String :=
  parts.flatMap fun
    | .own s    => s.required
    | .base _ _ => []

/-- The first description among the parts. -/
def Part.description (parts : List Part) : Option String :=
  parts.findSome? fun
    | .own s    => s.description
    | .base _ _ => none

/-- The definitions that the parts extend. -/
def Part.bases (parts : List Part) : Conversion (List String) :=
  parts.filterMapM fun
    | .own _    => pure none
    | .base r l => some <$> Conversion.target .schema r l

/-! ## Types -/

def OrReference.item? {α : Type} : OrReference α → Option α
  | .item a      => some a
  | .reference _ => none

mutual

/-- The type of a schema written at `l`. `place` names it if it is hoisted. -/
def typeOf (s : OrReference Schema) (place : String) (l : Location) : Conversion TypeRef :=
  match s with
  | .reference r => .reference <$> Conversion.target .schema r l
  | .item s      => inlineType s place l
termination_by 4 * sizeOf s

def inlineType (s : Schema) (place : String) (l : Location) : Conversion TypeRef :=
  have := s.sizeOf_kind
  match h : s.kind with
  | .string format values => pure (.primitive "string" format values)
  | .number               => pure (.primitive "number" none [])
  | .integer              => pure (.primitive "integer" none [])
  | .boolean              => pure (.primitive "boolean" none [])
  | .array none           => pure (.array .any)
  | .array (some items)   =>
    have : sizeOf items < sizeOf s := by
      simp only [h, Kind.array.sizeOf_spec, Option.some.sizeOf_spec] at this
      omega
    .array <$> typeOf items (place ++ "Item") (l.key "items")
  | .object [] _ (.schema values) =>
    have : sizeOf values < sizeOf s := by
      simp only [h, Kind.object.sizeOf_spec, Additional.schema.sizeOf_spec] at this
      omega
    .map <$> typeOf values (place ++ "Value") (l.key "additionalProperties")
  | .object [] _ _        => pure .any
  | .object _ _ _         => hoisted s place l
  | .allOf [.reference r] =>
    .reference <$> Conversion.target .schema r ((l.key "allOf").item 0)
  | .allOf _              => hoisted s place l
  | .general [] _ _       => pure .any
  | .general _ _ _        => hoisted s place l
  | .oneOf                => pure .any
  | .anyOf                => pure .any
  | .negation             => pure .any
termination_by 4 * sizeOf s + 3

/-- Makes a definition of an inline object schema and refers to it. -/
def hoisted (s : Schema) (place : String) (l : Location) : Conversion TypeRef := do
  let name ← Conversion.claim place
  Conversion.hoist (← objectOf name s l)
termination_by 4 * sizeOf s + 2

/-- The definition of an object schema, with the properties of all its parts. -/
def objectOf (name : String) (s : Schema) (l : Location) : Conversion Definition := do
  let parts := s.parts l
  let bases ← Part.bases parts
  let properties ← partProperties name (Part.requiredNames parts) l s []
  pure { name, description := Part.description parts, bases, properties }
termination_by 4 * sizeOf s + 1

/-- Adds the properties of a schema and its inline parts to those declared so far. -/
def partProperties (owner : String) (required : List String) (l : Location) (s : Schema)
    (declared : List Property) : Conversion (List Property) :=
  have := s.sizeOf_kind
  match h : s.kind with
  | .object properties _ _ =>
    have : sizeOf properties < sizeOf s := by
      simp only [h, Kind.object.sizeOf_spec] at this
      omega
    propertiesOf owner required l properties declared
  | .general properties _ _ =>
    have : sizeOf properties < sizeOf s := by
      simp only [h, Kind.general.sizeOf_spec] at this
      omega
    propertiesOf owner required l properties declared
  | .allOf parts =>
    have : sizeOf parts < sizeOf s := by
      simp only [h, Kind.allOf.sizeOf_spec] at this
      omega
    partsProperties owner required l parts declared
  | _ => pure declared
termination_by 4 * sizeOf s

def partsProperties (owner : String) (required : List String) (l : Location)
    (parts : List (OrReference Schema)) (declared : List Property) :
    Conversion (List Property) :=
  match parts with
  | []                   => pure declared
  | .reference _ :: rest => partsProperties owner required l rest declared
  | .item s :: rest      => do
    let declared ← partProperties owner required l s declared
    partsProperties owner required l rest declared
termination_by 4 * sizeOf parts

def propertiesOf (owner : String) (required : List String) (l : Location)
    (properties : List (String × OrReference Schema)) (declared : List Property) :
    Conversion (List Property) :=
  match properties with
  | [] => pure declared
  | (name, s) :: rest => do
    let type ← typeOf s (owner ++ Text.upperCamel name) ((l.key "properties").key name)
    let property := {
      name, type
      required := required.contains name
      nullable := s.item?.any (·.nullable)
      description := s.item?.bind (·.description) }
    propertiesOf owner required l rest (declareProperty declared property)
termination_by 4 * sizeOf properties

end

/-- Enters a named schema into the catalog. -/
def convertSchema (name : String) (s : OrReference Schema) : Conversion Unit := do
  let l : Location := ⟨"components.schemas." ++ name⟩
  match s.item?.filter (·.isObject) with
  | some s => Conversion.declare (← objectOf name s l)
  | none   => Conversion.addAlias name (← typeOf s name l)

/-! ## Components -/

/-- How many steps from reference to reference, and to the component, are made at most. -/
def stepLimit : Nat := 8

/-- The component that a reference leads to, in at most `steps` steps. -/
def followWithin {α : Type} (entries : List (String × OrReference α)) (kind : ReferenceKind)
    (l : Location) (steps : Nat) (item : OrReference α) : Conversion α :=
  match steps, item with
  -- references may lead in a circle
  | 0,         _            => throw (.malformed l .endlessReferences)
  | _ + 1,     .item a      => pure a
  | steps + 1, .reference r => do
    let name ← Conversion.target kind r l
    match entries.lookup name with
    | some next => followWithin entries kind l steps next
    | none      => throw (.malformed l (.unknownComponent name))

/-- The item itself, or the component it refers to. -/
def follow {α : Type} (entries : List (String × OrReference α)) (kind : ReferenceKind)
    (l : Location) (item : OrReference α) : Conversion α :=
  followWithin entries kind l stepLimit item

/-! ## Operations -/

/-- The first media type that is JSON, or else the first one. -/
def Content.preferred? (c : Content) : Option (String × MediaType) :=
  (c.find? fun m => isJsonMedia m.1).or c.head?

/-- The schema of the preferred media type, with that media type. -/
def Content.schema? (c : Content) : Option (String × OrReference Schema) := do
  let (name, media) ← Content.preferred? c
  (name, ·) <$> media.schema

def Parameter.convert (p : Parameter) (method : String) (l : Location) :
    Conversion Schema.Parameter := do
  let place := method ++ Text.upperCamel p.name
  let type ←
    match p.type with
    | .schema s  => typeOf s place (l.key "schema")
    | .content c =>
      match c.head?.bind (·.2.schema) with
      | some s => typeOf s place (l.key "content")
      | none   => pure .any
  pure { name := p.name, carrier := p.carrier, type, required := p.required,
         description := p.description }

def Document.convertParameters (d : Document) (method : String)
    (ps : List (OrReference Parameter)) (l : Location) : Conversion (List Schema.Parameter) :=
  ps.zipIdx.mapM fun (p, i) => do
    (← follow d.components.parameters .parameter (l.item i) p).convert method (l.item i)

/-- A request body as a parameter, and the media types it may be sent as. -/
def Document.convertBody (d : Document) (method : String) (body : OrReference RequestBody)
    (l : Location) : Conversion (List Schema.Parameter × List String) := do
  let body ← follow d.components.requestBodies .requestBody l body
  let media := body.content.map (·.1)
  match Content.preferred? body.content with
  | none => pure ([], media)
  | some (name, m) =>
    let type ←
      match m.schema with
      | some s => typeOf s (method ++ "Body") (((l.key "content").key name).key "schema")
      | none   => pure .any
    let parameter := { name := "body", carrier := .body, type, required := body.required,
                       description := body.description }
    pure ([parameter], media)

/-- The declared responses with references followed. -/
def Document.convertResponses (d : Document)
    (responses : List (String × OrReference Response)) (l : Location) :
    Conversion (List (String × Response)) :=
  responses.mapM fun (status, r) =>
    (status, ·) <$> follow d.components.responses .response (l.key status) r

/-- What a method returns and as which media types, by the response selected for it. -/
def returned (method : String) (responses : List (String × Response)) (l : Location) :
    Conversion (Option (Schema.Response × List String)) := do
  let declared := responses.map fun (status, r) =>
    (ResponseClass.ofKey status, (Content.schema? r.content).isSome)
  let some (index, optional) := selectResponse declared | pure none
  let some (status, r) := responses[index]? | pure none
  let some (media, s) := Content.schema? r.content | pure none
  let l := (((l.key status).key "content").key media).key "schema"
  let type ← typeOf s (method ++ "Response") l
  pure (some ({ type, optional }, r.content.map (·.1)))

def Document.convertOperation (d : Document) (verb : Verb) (path : String)
    (shared : List (OrReference Parameter)) (o : Operation) : Conversion Schema.Operation := do
  let method := methodName o.id verb path
  let l : Location := ⟨"paths." ++ path⟩
  let inherited ← d.convertParameters method shared (l.key "parameters")
  -- shared parameters have their place beside the operation, its own within it
  let l := l.key verb.key
  let own ← d.convertParameters method o.parameters (l.key "parameters")
  let (body, requestMedia) ←
    match o.requestBody with
    | some body => d.convertBody method body (l.key "requestBody")
    | none      => pure ([], [])
  let responses ← d.convertResponses o.responses (l.key "responses")
  let response ← returned method responses (l.key "responses")
  pure {
    verb, path, requestMedia
    id := o.id
    summary := o.summary
    description := o.description
    deprecated := o.deprecated
    parameters := mergeParameters inherited own ++ body
    response := response.map (·.1)
    responseMedia := (response.map (·.2)).getD [] }

/-- The operations of one path in the order of its keys. -/
def Document.convertPath (d : Document) (path : String) (item : OrReference PathItem) :
    Conversion (List Schema.Operation) :=
  match item with
  | .reference _ => throw (.malformed ⟨"paths." ++ path⟩ .pathItemReference)
  | .item item   =>
    item.operations.mapM fun (verb, o) => d.convertOperation verb path item.parameters o

/-- Fills the catalog with the named schemas and lists the operations. -/
def Document.convert (d : Document) : Conversion (List Schema.Operation) := do
  d.components.schemas.entries.forM fun (name, s) => convertSchema name s
  let operations ← d.paths.entries.mapM fun (path, item) => d.convertPath path item
  pure operations.flatten

end TypedClient.OpenApi
