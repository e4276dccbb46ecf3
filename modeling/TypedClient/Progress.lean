import TypedClient.Generation
import TypedClient.Log.Event

/-! # Progress of a generation

What is reported while a client is generated from a text: what each stage found, up to the point where
the generation stops.
-/

namespace TypedClient

open Log (Event)

namespace Progress

def hoisted (name : String) : Event :=
  { level := .debug
    source := Log.part "loader"
    message := "hoisted inline object schema"
    fields := [("name", name)] }

def loaded (d : Schema.Document) : Event :=
  { level := .debug
    source := Log.part "loader"
    message := "loaded schema document"
    fields := [("definitions", toString d.definitions.size), ("aliases", toString d.aliases.size),
      ("operations", toString d.operations.length)] }

def resolvedModel (m : ModelEntry) : Event :=
  { level := .debug
    source := Log.part "mapper"
    message := "resolved definition"
    fields := [("model", m.name), ("fields", toString m.fields.length)] }

def resolvedTable (t : TypeTable) : Event :=
  { level := .info
    source := Log.part "mapper"
    message := "resolved type table"
    fields := [("models", toString t.models.size), ("aliases", toString t.aliases.size)] }

def declared (position : Nat) (m : Model) : Event :=
  { level := .debug
    source := Log.part "models"
    message := "synthesized model"
    fields := [("model", m.name), ("position", toString position)] }

def outcome : Outcome → Event
  | .generated m =>
    { level := .debug
      source := Log.part "operations"
      message := "synthesized operation"
      fields := [("method", m.name), ("parameters", toString m.arguments.length)] }
  | .skipped s   =>
    { level := .warn
      source := Log.part "operations"
      message := s.message }

def generated (g : Generation) : Event :=
  { level := .info
    source := Log.program
    message := "generated client"
    fields := [("models", toString g.models.length),
      ("operations", toString g.client.methods.length), ("skipped", toString g.skipped.length)] }

/-! ## Stages -/

/-- Inline schemas are reported also when the document is refused later. -/
def ofLoading (text : String) : List Event :=
  match Source.read text with
  | .error _ => []
  | .ok s    =>
    s.convert.2.hoisted.names.map hoisted ++ match s.document with
      | .ok d    => [loaded d]
      | .error _ => []

/-- Models are reported also when a later definition is refused. -/
def ofResolution (d : Schema.Document) : List Event :=
  (Resolution.outcome d).2.models.map resolvedModel ++ match resolve d with
    | .ok t    => [resolvedTable t]
    | .error _ => []

def ofDeclarations (models : List Model) : List Event :=
  models.zipIdx.map fun (m, position) => declared position m

def ofOperations (t : TypeTable) (os : List Schema.Operation) : List Event :=
  match Outcome.ofOperations t [] os with
  | .ok outcomes => outcomes.map outcome
  | .error _     => []

/-- What is reported for a document that is loaded and resolved. -/
def ofResolved (s : Settings) (r : Resolved) : List Event :=
  ofDeclarations r.table.declarations ++ ofOperations r.table r.document.operations
    ++ match s.generateFrom r with
      | .ok g    => [generated g]
      | .error _ => []

/-- What is reported for a text. -/
def ofText (s : Settings) (text : String) : List Event :=
  ofLoading text ++ match load text with
    | .error _ => []
    | .ok d    =>
      ofResolution d ++ match resolve d with
        | .error _  => []
        | .ok table => ofResolved s { document := d, table }

end Progress

end TypedClient
