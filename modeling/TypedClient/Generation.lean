import TypedClient.Client.Surface
import TypedClient.Loading
import TypedClient.Model.Order

/-! # Generation

One run: from the text of a document to model declarations and a client.
-/

namespace TypedClient

structure Settings where
  clientName : String := Client.defaultName
  /-- Stands in for the endpoint that the document declares. -/
  baseEndpoint : Option String := none
  /-- Whether the generated source begins with a comment that says where it comes from. -/
  moduleDoc : Bool := true
  deriving DecidableEq, Repr

/-- The endpoint of a client when neither settings nor document name one. -/
def defaultEndpoint : String := "http://localhost"

/-- A document with its type table. -/
structure Resolved where
  document : Schema.Document
  table : TypeTable

/-- Loads and resolves a text. -/
def Resolved.ofText (text : String) : Except Failure Resolved := do
  let document ← load text
  let table ← resolve document
  .ok { document, table }

/-- All that one run produces. -/
structure Generation where
  title : Option String
  models : List Model
  client : Client
  skipped : List Skipped
  /-- The comment that the generated source begins with. -/
  header : Option String
  deriving DecidableEq, Repr

def Generation.model? (g : Generation) (name : String) : Option Model :=
  g.models.find? (·.name = name)

namespace Settings

/-- The comment for a document of the given title. -/
def header (s : Settings) (title : Option String) : Option String :=
  if s.moduleDoc then
    some ("Generated by oapi_client_generator from " ++ title.getD "a schema document"
      ++ ".\nDo not edit by hand.")
  else none

/-- The endpoint of the client for a document. -/
def endpointFor (s : Settings) (d : Schema.Document) : String :=
  (s.baseEndpoint.or d.baseEndpoint).getD defaultEndpoint

/-- Generates from a document that is loaded and resolved. -/
def generateFrom (s : Settings) (r : Resolved) : Except Failure Generation := do
  let (methods, skipped) ← r.table.methods r.document.operations
  .ok {
    title := r.document.title
    models := r.table.declarations
    client := (Client.assemble (s.endpointFor r.document) methods).withName s.clientName
    skipped
    header := s.header r.document.title }

def generate (s : Settings) (text : String) : Except Failure Generation := do
  s.generateFrom (← Resolved.ofText text)

end Settings

end TypedClient
