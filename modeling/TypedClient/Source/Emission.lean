import TypedClient.Failure
import TypedClient.Generation
import TypedClient.Source.ClientCode
import TypedClient.Source.Print

/-! # Emission

The whole generated source: a comment, the support code, the models and the client.
-/

namespace TypedClient.Source

/-- A comment of one line for each line of a text, and an empty line. -/
def headerComment (header : String) : String :=
  String.join ((Text.lines header).map fun line => "// " ++ line ++ "\n") ++ "\n"

/-- The first of several identifiers that stands among those before it. -/
def firstRepeated? (seen : List String) : List String → Option String
  | []      => none
  | s :: ss => if s ∈ seen then some s else firstRepeated? (s :: seen) ss

/-- The source for models and a client. Two models of one name cannot be in one source. -/
def emit (models : List Model) (c : Client) (header : Option String) : Except Failure String :=
  let ns := TypeNames.ofModels models c
  match firstRepeated? [] (models.map (ns.model ·.name)) with
  | some s => .error (.repeatedType s)
  | none   =>
    .ok ((header.map headerComment).getD "" ++ Support.text
      ++ printItems (models.flatMap (modelItems ns) ++ clientItems ns c))

end TypedClient.Source

namespace TypedClient

/-- The source of what a run produced. -/
def Generation.source (g : Generation) : Except Failure String :=
  Source.emit g.models g.client g.header

end TypedClient
