import TypedClient.Data.Shape

/-! # OpenAPI 3 schemas

A schema is classified by the set of its keywords: the keywords of one type, or one combining
keyword alone. Any other mixture is a general schema.
-/

namespace TypedClient.OpenApi

/-- A reference to an entry of the components, or the entry itself. -/
inductive OrReference (α : Type) where
  | reference (target : String)
  | item (value : α)

inductive Additional (σ : Type) where
  | unsaid
  | free
  | schema (values : OrReference σ)

inductive Kind (σ : Type) where
  | string (format : Option String) (values : List String)
  | number
  | integer
  | boolean
  | array (items : Option (OrReference σ))
  | object (properties : List (String × OrReference σ)) (required : List String)
      (additional : Additional σ)
  | allOf (parts : List (OrReference σ))
  | oneOf
  | anyOf
  | negation
  /-- A mixture of keywords. Its parts, if it has an `allOf`, are kept but play no role. -/
  | general (properties : List (String × OrReference σ)) (required : List String)
      (parts : List (OrReference σ))

structure Schema where
  nullable : Bool
  description : Option String
  kind : Kind Schema

/-! ## Keywords

The keywords of a schema are read one by one. A keyword that is `null` counts as missing. -/

structure Keywords where
  type : Option String := none
  pattern : Bool := false
  multipleOf : Option Float := none
  exclusiveMinimum : Bool := false
  exclusiveMaximum : Bool := false
  minimum : Option Float := none
  maximum : Option Float := none
  properties : Option (List (String × OrReference Schema)) := none
  required : Option (List String) := none
  additional : Additional Schema := .unsaid
  minProperties : Bool := false
  maxProperties : Bool := false
  items : Option (OrReference Schema) := none
  minItems : Bool := false
  maxItems : Bool := false
  uniqueItems : Bool := false
  values : Option (List Data) := none
  format : Option String := none
  minLength : Bool := false
  maxLength : Bool := false
  oneOf : Bool := false
  allOf : Option (List (OrReference Schema)) := none
  anyOf : Bool := false
  negation : Bool := false

namespace Keywords

/-- What a keyword is about. -/
inductive Family where
  | pattern | format | values | length
  | bounds
  | object
  | array
  | oneOf | allOf | anyOf | negation
  deriving DecidableEq, Repr

namespace Family

def all : List Family :=
  [.pattern, .format, .values, .length, .bounds, .object, .array, .oneOf, .allOf, .anyOf, .negation]

end Family

/-- Whether a keyword of a family is present. -/
def has (k : Keywords) : Family → Bool
  | .pattern  => k.pattern
  | .format   => k.format.isSome
  | .values   => k.values.isSome
  | .length   => k.minLength || k.maxLength
  | .bounds   =>
    k.multipleOf.isSome || k.exclusiveMinimum || k.exclusiveMaximum || k.minimum.isSome
      || k.maximum.isSome
  | .object   =>
    k.properties.isSome || k.required.isSome || k.minProperties || k.maxProperties
      || !(k.additional matches .unsaid)
  | .array    => k.items.isSome || k.minItems || k.maxItems || k.uniqueItems
  | .oneOf    => k.oneOf
  | .allOf    => k.allOf.isSome
  | .anyOf    => k.anyOf
  | .negation => k.negation

/-- The families of keywords that are present. -/
def families (k : Keywords) : List Family := Family.all.filter k.has

/-- Whether all keywords but the type are of the given families. -/
def within (k : Keywords) (allowed : List Family) : Bool :=
  k.families.all allowed.contains

/-- Whether all listed values are `null` or of one kind. -/
def valuesAre (k : Keywords) (kind : Data → Bool) : Bool :=
  (k.values.getD []).all fun v => (v matches .null) || kind v

/-- Whether no bound of an integer has a fraction. -/
def wholeBounds (k : Keywords) : Bool :=
  [k.multipleOf, k.minimum, k.maximum].all fun b => b.all fun x => x.floor == x

def general (k : Keywords) : Kind Schema :=
  .general (k.properties.getD []) (k.required.getD []) (k.allOf.getD [])

/-- The kind of a schema that names its type. -/
def typed (k : Keywords) : String → Kind Schema
  | "string" =>
    if k.within [.pattern, .format, .values, .length] && k.valuesAre (Shape.text ·) then
      .string k.format ((k.values.getD []).filterMap Data.asText?)
    else k.general
  | "number" =>
    if k.within [.format, .values, .bounds] && k.valuesAre (Shape.ofDecoder Decoder.real) then
      .number
    else k.general
  | "integer" =>
    if k.within [.format, .values, .bounds] && k.valuesAre (Shape.ofDecoder Decoder.whole)
        && k.wholeBounds then
      .integer
    else k.general
  | "boolean" =>
    if k.within [.values] && k.valuesAre Shape.flag then .boolean else k.general
  | "array" => if k.within [.array] then .array k.items else k.general
  | "object" =>
    if k.within [.object] then
      .object (k.properties.getD []) (k.required.getD []) k.additional
    else k.general
  | _ => k.general

/-- The kind of a schema that does not name its type: a combining keyword, if it stands alone. -/
def untyped (k : Keywords) : Kind Schema :=
  match k.families with
  | [.oneOf]    => .oneOf
  | [.allOf]    => .allOf (k.allOf.getD [])
  | [.anyOf]    => .anyOf
  | [.negation] => .negation
  | _           => k.general

def kind (k : Keywords) : Kind Schema :=
  match k.type with
  | some name => k.typed name
  | none      => k.untyped

end Keywords

/-! ## Reading a schema -/

def externalDocs (lenient : Bool) : Shape :=
  Shape.record lenient [optional "description" Shape.text, needed "url" Shape.text]

def discriminator : Shape :=
  Shape.record false
    [needed "propertyName" Shape.text, defaulted "mapping" (Shape.dict false Shape.text)]

/-- The fields that any schema may have, whatever its kind. -/
def annotations : List FieldShape :=
  [ defaulted "nullable" Shape.flag, defaulted "readOnly" Shape.flag,
    defaulted "writeOnly" Shape.flag, defaulted "deprecated" Shape.flag,
    optional "externalDocs" (externalDocs false), optional "example" Shape.json,
    optional "title" Shape.text, optional "description" Shape.text,
    optional "discriminator" discriminator, optional "default" Shape.json ]

/-- The target of a reference: a mapping with a text under `$ref`, whatever else it has, or a list
of that text alone. -/
def referenceTarget? : Data → Option String
  | .mapping es => do (← Data.textFields? es).lookup "$ref" >>= Data.asText?
  | .list [d]   => d.asText?
  | _           => none

def OrReference.decode {α : Type} (item : Decoder α) : Decoder (OrReference α) := fun d =>
  match referenceTarget? d with
  | some target => some (.reference target)
  | none        => (item d).map .item

mutual

def Schema.decode : Data → Option Schema
  | .mapping es => do
    let fs ← Data.textFields? es
    if !Shape.fields annotations fs then none
    let keywords ← Keywords.ofEntries es {}
    some {
      nullable := ← fs.get "nullable" Decoder.flag false
      description := ← fs.get? "description" Decoder.text
      kind := keywords.kind }
  | _ => none
termination_by d => 4 * sizeOf d

def Schema.decodeOrReference (d : Data) : Option (OrReference Schema) :=
  match referenceTarget? d with
  | some target => some (.reference target)
  | none        => (Schema.decode d).map .item
termination_by 4 * sizeOf d + 1

/-- Reads the entries of a schema one after the other into `k`. -/
def Keywords.ofEntries : List (Data × Data) → Keywords → Option Keywords
  | [],           k => some k
  | (n, v) :: es, k => do
    let name ← n.keyText?
    let k ← if v matches .null then some k else Keywords.withKeyword name v k
    Keywords.ofEntries es k
termination_by es => 4 * sizeOf es

/-- Reads one keyword into `k`; a field of another name is passed over. -/
def Keywords.withKeyword (name : String) (v : Data) (k : Keywords) : Option Keywords :=
  match name with
  | "type" => do some { k with type := ← Decoder.text v }
  | "pattern" => do some { k with pattern := ← Shape.text.require v }
  | "multipleOf" => do some { k with multipleOf := ← Decoder.real v }
  | "exclusiveMinimum" => do some { k with exclusiveMinimum := ← Shape.flag.require v }
  | "exclusiveMaximum" => do some { k with exclusiveMaximum := ← Shape.flag.require v }
  | "minimum" => do some { k with minimum := ← Decoder.real v }
  | "maximum" => do some { k with maximum := ← Decoder.real v }
  | "properties" => do some { k with properties := ← Schema.decodeDict v }
  | "required" => do some { k with required := ← Decoder.list false Decoder.text v }
  | "additionalProperties" =>
    match v with
    | .bool _ => some { k with additional := .free }
    | v       => do some { k with additional := .schema (← Schema.decodeOrReference v) }
  | "minProperties" => do some { k with minProperties := ← Shape.count.require v }
  | "maxProperties" => do some { k with maxProperties := ← Shape.count.require v }
  | "items" => do some { k with items := some (← Schema.decodeOrReference v) }
  | "minItems" => do some { k with minItems := ← Shape.count.require v }
  | "maxItems" => do some { k with maxItems := ← Shape.count.require v }
  | "uniqueItems" => do some { k with uniqueItems := ← Shape.flag.require v }
  | "enum" => do some { k with values := ← Decoder.list false Decoder.json v }
  | "format" => do some { k with format := some (← Decoder.text v) }
  | "minLength" => do some { k with minLength := ← Shape.count.require v }
  | "maxLength" => do some { k with maxLength := ← Shape.count.require v }
  | "oneOf" => do
    let _ ← Schema.decodeList v
    some { k with oneOf := true }
  | "allOf" => do some { k with allOf := some (← Schema.decodeList v) }
  | "anyOf" => do
    let _ ← Schema.decodeList v
    some { k with anyOf := true }
  | "not" => do
    let _ ← Schema.decodeOrReference v
    some { k with negation := true }
  | _ => some k
termination_by 4 * sizeOf v + 2

def Schema.decodeList : Data → Option (List (OrReference Schema))
  | .list ds => Schema.decodeItems ds
  | _        => none
termination_by d => 4 * sizeOf d

def Schema.decodeItems : List Data → Option (List (OrReference Schema))
  | []      => some []
  | d :: ds => do
    let s ← Schema.decodeOrReference d
    let ss ← Schema.decodeItems ds
    some (s :: ss)
termination_by ds => 4 * sizeOf ds

def Schema.decodeDict : Data → Option (List (String × OrReference Schema))
  | .mapping es => do some (OrderedMap.ofList (← Schema.decodeEntries es)).entries
  | _           => none
termination_by d => 4 * sizeOf d

def Schema.decodeEntries : List (Data × Data) → Option (List (String × OrReference Schema))
  | []           => some []
  | (n, v) :: es => do
    let name ← n.keyText?
    let s ← Schema.decodeOrReference v
    let ss ← Schema.decodeEntries es
    some ((name, s) :: ss)
termination_by es => 4 * sizeOf es

end

end TypedClient.OpenApi
