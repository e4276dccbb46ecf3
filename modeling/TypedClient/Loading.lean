import TypedClient.Data.Json
import TypedClient.OpenApi.Conversion
import TypedClient.Swagger.Conversion
import TypedClient.Yaml.Reading

/-! # Loading

From the text of a document to the schema document it declares. A text that begins with a brace is
JSON and any other is YAML; the version it names tells the dialect.
-/

namespace TypedClient

open Schema (Catalog Conversion)

/-! ## Data -/

/-- Whether a text is in JSON notation. -/
def isJsonText (text : String) : Bool :=
  (text.toList.dropWhile Text.isBlank).head? == some '{'

def readData (text : String) : Except Failure Data :=
  if isJsonText text then
    match Json.read text with
    | .ok d    => .ok d
    | .error p => .error (.malformed (.line p.line p.column) (.format "JSON"))
  else
    match Yaml.read text with
    | .ok d        => .ok d
    | .error place => .error (.malformed place (.format "YAML"))

/-- The data of a document: a mapping whose usual keys are texts. -/
def readDocument (text : String) : Except Failure Data :=
  match readData text with
  | .error e          => .error e
  | .ok (.mapping es) => .ok (Data.withTextKeys (.mapping es))
  | .ok _             => .error (.malformed .root .notMapping)

/-! ## Dialects -/

inductive Dialect where
  | swagger
  | openApi
  deriving DecidableEq, Repr

namespace Dialect

/-- The text of a version, which may be written as a number. -/
def version? (d : Data) (key : String) : Option String :=
  match d.get? key with
  | some (.text s)   => some s
  | some (.number n) => some (n.toText .key)
  | _                => none

/-- The dialect by the version that a document names; that of Swagger comes first. -/
def detect (d : Data) : Except Failure Dialect :=
  match version? d "swagger", version? d "openapi" with
  | some v, _ =>
    if v.startsWith "2" then .ok .swagger
    else .error (.malformed ⟨"swagger"⟩ (.swaggerVersion v))
  | none, some v =>
    if v.startsWith "3." then .ok .openApi
    else .error (.malformed ⟨"openapi"⟩ (.openApiVersion v))
  | none, none => .error (.malformed .root .noVersion)

end Dialect

/-! ## Schema documents -/

/-- A document of either dialect, before it is converted. -/
inductive Source where
  | swagger (d : Swagger.Document)
  | openApi (d : OpenApi.Document)

namespace Source

/-- Decodes the data of a document. -/
def ofData (d : Data) : Except Failure Source :=
  match Dialect.detect d with
  | .error e     => .error e
  | .ok .swagger =>
    match Swagger.Decoder.document d with
    | some s => .ok (.swagger s)
    | none   => .error (.malformed .root .shape)
  | .ok .openApi =>
    match OpenApi.Decoder.document d with
    | some s => .ok (.openApi s)
    | none   => .error (.malformed .root .shape)

def read (text : String) : Except Failure Source :=
  (readDocument text).bind ofData

/-- The names of the schemas that a document declares. -/
def schemaNames : Source → List String
  | .swagger d => d.definitions.names
  | .openApi d => d.components.schemas.names

def title : Source → Option String
  | .swagger d => d.title
  | .openApi d => some d.title

def baseEndpoint : Source → Option String
  | .swagger d => d.baseEndpoint
  | .openApi d => d.servers.head?

def operations : Source → Conversion (List Schema.Operation)
  | .swagger d => d.convert
  | .openApi d => d.convert

/-- Converts the schemas and operations, starting with a catalog that has none. The catalog is kept
as far as it got when the conversion fails. -/
def convert (s : Source) : Except Failure (List Schema.Operation) × Catalog :=
  s.operations.run (Catalog.withNames s.schemaNames)

/-- The schema document that a document declares. -/
def document (s : Source) : Except Failure Schema.Document :=
  match s.convert with
  | (.error e, _)        => .error e
  | (.ok operations, c) => .ok {
      definitions := c.definitions
      aliases := c.aliases
      operations
      baseEndpoint := s.baseEndpoint
      title := s.title }

end Source

/-- The schema document that a text declares. -/
def load (text : String) : Except Failure Schema.Document :=
  (Source.read text).bind Source.document

end TypedClient
