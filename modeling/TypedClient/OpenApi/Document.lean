import TypedClient.OpenApi.Schema
import TypedClient.Schema.Document

/-! # OpenAPI 3 documents

The parts of an OpenAPI 3 document that describe types and operations, and their decoders. All
other parts are checked for their shape. Only the outermost parts are lenient.
-/

namespace TypedClient.OpenApi

open TypedClient.Schema (Verb Carrier)

structure MediaType where
  schema : Option (OrReference Schema)

/-- Media types with what they carry. -/
abbrev Content := List (String × MediaType)

/-- Where the type of a parameter is given. -/
inductive ParameterType where
  | schema (s : OrReference Schema)
  | content (c : Content)

structure Parameter where
  name : String
  carrier : Carrier
  required : Bool
  description : Option String
  type : ParameterType

structure RequestBody where
  description : Option String
  required : Bool
  content : Content

structure Response where
  content : Content

structure Operation where
  id : Option String
  summary : Option String
  description : Option String
  deprecated : Bool
  parameters : List (OrReference Parameter)
  requestBody : Option (OrReference RequestBody)
  /-- The responses by status, `200` or `2XX`; then the one for any other status. -/
  responses : List (String × OrReference Response)

structure PathItem where
  parameters : List (OrReference Parameter)
  operations : List (Verb × Operation)

structure Components where
  schemas : OrderedMap (OrReference Schema) := ∅
  parameters : List (String × OrReference Parameter) := []
  responses : List (String × OrReference Response) := []
  requestBodies : List (String × OrReference RequestBody) := []

structure Document where
  title : String
  servers : List String
  paths : OrderedMap (OrReference PathItem)
  components : Components

/-! ## Parts that are only checked -/

namespace Shape

open TypedClient.Shape

def orReference (item : Shape) : Shape := fun d => (referenceTarget? d).isSome || item d

def server (lenient : Bool) : Shape :=
  record lenient
    [ needed "url" text, optional "description" text,
      optional "variables" (dict lenient (record lenient
        [needed "default" text, defaulted "enum" (list lenient text),
          optional "description" text])) ]

def security (lenient : Bool) : Shape := list lenient (dict lenient (list lenient text))

def queryStyle : Shape := oneOf ["form", "spaceDelimited", "pipeDelimited", "deepObject"]

def headerStyle : Shape := oneOf ["simple"]

def «example» : Shape :=
  record false
    [ optional "summary" text, optional "description" text, optional "value" json,
      optional "externalValue" text ]

def examples : FieldShape := defaulted "examples" (dict false (orReference «example»))

def link : Shape := fun d =>
  (Decoder.fields false d).any fun fs =>
    fields
        [ optional "description" text, optional "requestBody" json,
          defaulted "parameters" (dict false json), optional "server" (server false) ] fs
      && (firstField ["operationRef", "operationId"] fs).any fun f => text f.2

/-- A flow of authorization; `urls` are the addresses it needs. -/
def flow (urls : List String) : Shape :=
  record false
    (urls.map (needed · text)
      ++ [optional "refreshUrl" text, defaulted "scopes" (dict false text)])

def flows : Shape :=
  record false
    [ optional "implicit" (flow ["authorizationUrl"]), optional "password" (flow ["tokenUrl"]),
      optional "clientCredentials" (flow ["tokenUrl"]),
      optional "authorizationCode" (flow ["authorizationUrl", "tokenUrl"]) ]

def securityScheme : Shape :=
  tagged "type"
    [ ("apiKey", [needed "in" (oneOf ["query", "header", "cookie"]), needed "name" text,
        optional "description" text]),
      ("http", [needed "scheme" text, optional "bearerFormat" text,
        optional "description" text]),
      ("oauth2", [needed "flows" flows, optional "description" text]),
      ("openIdConnect", [needed "openIdConnectUrl" text, optional "description" text]) ]

end Shape

/-! ## Content and parameters -/

namespace Decoder

open TypedClient.Decoder
open TypedClient.Shape (text flag json list dict record oneOf firstField)

def schema : TypedClient.Decoder (OrReference Schema) := OrReference.decode Schema.decode

/-- The type of a parameter: the first of the two fields that may give it. -/
def parameterType (content : TypedClient.Decoder Content) (fs : Fields) : Option ParameterType :=
  match firstField ["schema", "content"] fs with
  | some ("schema", v) => (schema v).map .schema
  | some (_, v)        => (content v).map .content
  | none               => none

/-- Whether a parameter or header has its type, whatever it is. -/
def hasType (content : Shape) (fs : Fields) : Bool :=
  match firstField ["schema", "content"] fs with
  | some ("schema", v) => (schema v).isSome
  | some (_, v)        => content v
  | none               => false

mutual

/-- Whether a node is content: it may hold headers, and those hold content again. -/
def isContent : Data → Bool
  | .mapping es => entriesAreContent es
  | _           => false

def entriesAreContent : List (Data × Data) → Bool
  | []           => true
  | (k, v) :: es => k.keyText?.isSome && isMediaType v && entriesAreContent es

def isMediaType : Data → Bool
  | .mapping es =>
    ((Data.textFields? es).any (Shape.fields
      [ optional "schema" fun v => (schema v).isSome, optional "example" json, Shape.examples ]))
      && encodingsHold es
  | _ => false

/-- Whether the fields of a media type admit its encodings. -/
def encodingsHold : List (Data × Data) → Bool
  | []           => true
  | (k, v) :: es =>
    (k.keyText? != some "encoding" || isEncodings v) && encodingsHold es

def isEncodings : Data → Bool
  | .mapping es => entriesAreEncodings es
  | _           => false

def entriesAreEncodings : List (Data × Data) → Bool
  | []           => true
  | (k, v) :: es => k.keyText?.isSome && isEncoding v && entriesAreEncodings es

def isEncoding : Data → Bool
  | .mapping es =>
    ((Data.textFields? es).any (Shape.fields
      [ optional "contentType" text, optional "style" Shape.queryStyle, defaulted "explode" flag,
        defaulted "allowReserved" flag ]))
      && headersHold es
  | _ => false

/-- Whether the fields of an encoding admit its headers. -/
def headersHold : List (Data × Data) → Bool
  | []           => true
  | (k, v) :: es =>
    (k.keyText? != some "headers" || isHeaders v) && headersHold es

def isHeaders : Data → Bool
  | .mapping es => entriesAreHeaders es
  | _           => false

def entriesAreHeaders : List (Data × Data) → Bool
  | []           => true
  | (k, v) :: es =>
    k.keyText?.isSome && ((referenceTarget? v).isSome || isHeader v) && entriesAreHeaders es

def isHeader : Data → Bool
  | .mapping es =>
    ((Data.textFields? es).any (Shape.fields
      [ optional "description" text, defaulted "style" Shape.headerStyle,
        defaulted "required" flag, optional "deprecated" flag, optional "example" json,
        Shape.examples ]))
      && headerTyped es
  | _ => false

/-- Whether the first field that gives the type of a header does so. -/
def headerTyped : List (Data × Data) → Bool
  | []           => false
  | (k, v) :: es =>
    match k.keyText? with
    | some "schema"  => (schema v).isSome
    | some "content" => isContent v
    | _              => headerTyped es

end

def headers : Shape := dict false (Shape.orReference isHeader)

def mediaType : TypedClient.Decoder MediaType := fun d => do
  if !isMediaType d then none
  let fs ← fields false d
  some { schema := ← fs.get? "schema" schema }

def content : TypedClient.Decoder Content := fun v =>
  (TypedClient.Decoder.dict false mediaType v).map (·.entries)

/-- The fields that tell a parameter's place, and how values are written there. -/
def placements : List (String × Carrier × List FieldShape) :=
  [ ("query", .query, [defaulted "allowReserved" flag, defaulted "style" Shape.queryStyle,
      optional "allowEmptyValue" flag]),
    ("header", .header, [defaulted "style" Shape.headerStyle]),
    ("path", .path, [defaulted "style" (oneOf ["matrix", "label", "simple"])]),
    ("cookie", .cookie, [defaulted "style" (oneOf ["form"])]) ]

def parameter : TypedClient.Decoder Parameter := fun d => do
  let fs ← fields false d
  let place ← fs.need "in" TypedClient.Decoder.text
  let (carrier, shapes) ← placements.lookup place
  let shapes := shapes ++
    [optional "deprecated" flag, optional "example" json, Shape.examples, optional "explode" flag]
  if !Shape.fields shapes fs then none
  some {
    name := ← fs.need "name" TypedClient.Decoder.text
    carrier
    required := ← fs.get "required" TypedClient.Decoder.flag false
    description := ← fs.get? "description" TypedClient.Decoder.text
    type := ← parameterType content fs }

/-! ## Bodies, responses and operations -/

def requestBody : TypedClient.Decoder RequestBody := fun d => do
  let fs ← fields false d
  if !TypedClient.Shape.extensions fs then none
  some {
    description := ← fs.get? "description" TypedClient.Decoder.text
    required := ← fs.get "required" TypedClient.Decoder.flag false
    content := ← fs.get "content" content [] }

def response : TypedClient.Decoder Response := fun d => do
  let fs ← fields false d
  let shapes :=
    [ needed "description" text, defaulted "headers" headers,
      defaulted "links" (dict false (Shape.orReference Shape.link)) ]
  if !Shape.fields shapes fs then none
  some { content := ← fs.get "content" content [] }

/-- The status that a key of the responses stands for: three digits, or one for a hundred of
them. Three bytes that read as a whole number are no range. -/
def status? (key : String) : Option String :=
  match key.toList with
  | [a, b, c] =>
    if a.isDigit && b.isDigit && c.isDigit then if a = '0' then none else some key
    else if a.isDigit && b.toUpper = 'X' && c.toUpper = 'X' then
      some (String.ofList [a, 'X', 'X'])
    else none
  | _ => none

def responses : TypedClient.Decoder (List (String × OrReference Response)) := fun d => do
  let fs ← fields false d
  if !TypedClient.Shape.extensions fs then none
  let byStatus ← fs.filterMapM fun (key, v) =>
    match status? key with
    | some status => (OrReference.decode response v).map fun r => some (status, r)
    | none        => some none
  let fallback ← fs.get? "default" (OrReference.decode response)
  some ((OrderedMap.ofList byStatus).entries ++ fallback.toList.map ("default", ·))

/-- The fields of an operation other than its callbacks. -/
def operationFields (fs : Fields) : Option Operation := do
  let shapes :=
    [ defaulted "tags" (list false text), optional "externalDocs" (externalDocs false),
      optional "security" (Shape.security false),
      defaulted "servers" (list false (Shape.server false)) ]
  if !Shape.fields shapes fs then none
  some {
    id := ← fs.get? "operationId" TypedClient.Decoder.text
    summary := ← fs.get? "summary" TypedClient.Decoder.text
    description := ← fs.get? "description" TypedClient.Decoder.text
    deprecated := ← fs.get "deprecated" TypedClient.Decoder.flag false
    parameters :=
      ← fs.get "parameters" (TypedClient.Decoder.list false (OrReference.decode parameter)) []
    requestBody := ← fs.get? "requestBody" (OrReference.decode requestBody)
    responses := ← fs.need "responses" responses }

/-- The fields of a path item other than its operations. No field is given twice. -/
def pathItemFields (fs : Fields) : Option (List (OrReference Parameter)) := do
  let shapes :=
    [ optional "summary" text, optional "description" text,
      defaulted "servers" (list false (Shape.server false)) ]
  if !Shape.fields shapes fs || !(fs.map Prod.fst).Nodup then none
  fs.get "parameters" (TypedClient.Decoder.list false (OrReference.decode parameter)) []

/-- The nodes between an operation and the operations of its callbacks. -/
inductive CallbackNode where
  | operation
  | callbacks
  | callback
  | pathItem

/-- The node that a field leads to. -/
def CallbackNode.child? : CallbackNode → String → Option CallbackNode
  | .operation, name => if name = "callbacks" then some .callbacks else none
  | .callbacks, _    => some .callback
  | .callback,  _    => some .pathItem
  | .pathItem,  name => if Verb.all.any (·.key = name) then some .operation else none

/-- Whether the fields of a node, apart from those that lead to further nodes, are admitted. -/
def CallbackNode.admits : CallbackNode → Fields → Bool
  | .operation, fs => (operationFields fs).isSome
  | .callbacks, _  => true
  | .callback,  _  => true
  | .pathItem,  fs => (pathItemFields fs).isSome

mutual

/-- Whether a node and all that it leads to have their shape. -/
def CallbackNode.holds (node : CallbackNode) : Data → Bool
  | .mapping es => (Data.textFields? es).any node.admits && node.childrenHold es
  | _           => false

def CallbackNode.childrenHold (node : CallbackNode) : List (Data × Data) → Bool
  | []           => true
  | (k, v) :: es =>
    (match k.keyText?.bind node.child? with
      | some .operation => (v matches .null) || CallbackNode.operation.holds v
      | some child      => child.holds v
      | none            => true)
      && node.childrenHold es

end

def operation : TypedClient.Decoder Operation := fun d => do
  if !CallbackNode.operation.holds d then none
  operationFields (← fields false d)

/-- A path item. Its operations have keys in lower case; any key that reads as a verb gives the
place of that verb's operation. -/
def pathItem : TypedClient.Decoder PathItem := fun d => do
  let fs ← fields false d
  let parameters ← pathItemFields fs
  let declared ← Verb.all.filterMapM fun v =>
    (fs.get? v.key operation).map fun o => o.map (v, ·)
  -- keys in upper case declare no operation, but have a place in the order
  let order := fs.filterMap fun (key, _) => Verb.ofKey? key
  some {
    parameters
    operations := order.filterMap fun v => declared.find? (·.1 = v) }

/-! ## Documents -/

/-- A lenient mapping from names to references or items. -/
def named {α : Type} (item : TypedClient.Decoder α) (fs : Fields) (name : String) :
    Option (OrderedMap (OrReference α)) :=
  fs.get name (TypedClient.Decoder.dict true (OrReference.decode item)) ∅

def components : TypedClient.Decoder Components := fun d => do
  let fs ← fields true d
  let section_ (name : String) (item : Shape) : FieldShape :=
    defaulted name (dict true (Shape.orReference item))
  let shapes :=
    [ section_ "examples" Shape.example, section_ "headers" isHeader,
      section_ "securitySchemes" Shape.securityScheme, section_ "links" Shape.link,
      section_ "callbacks" CallbackNode.callback.holds ]
  if !Shape.fields shapes fs then none
  some {
    schemas := ← named Schema.decode fs "schemas"
    parameters := (← named parameter fs "parameters").entries
    responses := (← named response fs "responses").entries
    requestBodies := (← named requestBody fs "requestBodies").entries }

/-- The title of a document. -/
def info : TypedClient.Decoder String := fun d => do
  let fs ← fields true d
  let contact := record true [optional "name" text, optional "url" text, optional "email" text]
  let license := record true [needed "name" text, optional "url" text]
  let shapes :=
    [ optional "description" text, optional "termsOfService" text, optional "contact" contact,
      optional "license" license, needed "version" text ]
  if !Shape.fields shapes fs then none
  fs.need "title" TypedClient.Decoder.text

/-- The address of a server. -/
def serverUrl : TypedClient.Decoder String := fun d => do
  if !Shape.server true d then none
  (← fields true d).need "url" TypedClient.Decoder.text

def paths : TypedClient.Decoder (OrderedMap (OrReference PathItem)) := fun d => do
  let fs ← fields true d
  if !TypedClient.Shape.extensions fs then none
  -- what does not begin with a slash is an extension, or passed over
  let items ← (fs.filter (·.1.startsWith "/")).mapM fun (path, v) =>
    (OrReference.decode pathItem v).map (path, ·)
  some (.ofList items)

def document : TypedClient.Decoder Document := fun d => do
  let fs ← fields true d
  let shapes :=
    [ needed "openapi" text, optional "security" (Shape.security true),
      defaulted "tags" (list true (record true
        [needed "name" text, optional "description" text,
          optional "externalDocs" (externalDocs true)])),
      optional "externalDocs" (externalDocs true) ]
  if !Shape.fields shapes fs then none
  some {
    title := ← fs.need "info" info
    servers := ← fs.get "servers" (TypedClient.Decoder.list true serverUrl) []
    paths := ← fs.need "paths" paths
    components := (← fs.get? "components" components).getD {} }

end Decoder

end TypedClient.OpenApi
