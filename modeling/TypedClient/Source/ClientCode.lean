import TypedClient.Source.ModelCode
import TypedClient.Text.Blank

/-! # Code of a client

A record that holds a transport, with a function for each method of the client.
-/

namespace TypedClient.Source

open Schema (Carrier)

/-- The names that the functions of a client use for themselves. -/
def localNames : List String :=
  ["url", "path", "query", "headers", "payload", "response", "value"]

/-- The functions that every client has. -/
def clientFunctionNames : List String := ["new", "with_base_url", "base_url", "transport"]

/-- An argument with its name in the source. -/
structure NamedArgument where
  argument : Argument
  name : String

namespace NamedArgument

/-- The parameter for an argument; the body of a request is only borrowed. -/
def parameter? (ns : TypeNames) (a : NamedArgument) : Option Parameter :=
  let type := a.argument.type
  match a.argument.carrier with
  | .body =>
    let borrowed := TypeExpr.borrowed (ns.typeExpr false type.nonNull)
    some ⟨a.name, if type.isNullable then borrowed.option else borrowed⟩
  | .path | .query | .header => some ⟨a.name, ns.typeExpr false type⟩
  | .formData | .cookie      => none

/-- Puts the argument into a path in place of its name in braces. -/
def replaceIn (path : Expr) (a : NamedArgument) : Expr :=
  .method path "replace"
    [.word (literal ("\x7b" ++ a.argument.name ++ "\x7d")),
      .borrow (.call "encode_path_segment" [.borrow (.method (.word a.name) "to_param" [])])]

/-- Adds the name and the text of the argument to a list, unless it is missing. -/
def pushTo (list : String) (a : NamedArgument) : Statement :=
  let push (value : String) : Statement :=
    .push list (.tuple [.method (.word (literal a.argument.name)) "to_owned" [],
      .method (.word value) "to_param" []])
  if a.argument.type.isNullable then
    .when (.matched "Some(value)" (.borrow (.word a.name))) [push "value"]
  else push a.name

/-- The bytes of the argument as the body of a request. -/
def payload (a : NamedArgument) : Statement :=
  if a.argument.type.isNullable then
    .bind "payload" (.cases (.word a.name)
      ["Some(value) => Some(serde_json::to_vec(value)?),", "None => None,"])
  else
    .bind "payload"
      (.call "Some" [.propagate (.call "serde_json::to_vec" [.word a.name])])

end NamedArgument

/-! ## The function of a method -/

/-- The arguments of a method with their names in the source. -/
def namedArguments (m : Method) : List NamedArgument :=
  let names := snakeIdentifiers localNames (m.arguments.map (·.name))
  (m.arguments.zip names).map fun (argument, name) => { argument, name }

/-- The request that a method sends, its summary and its description. -/
def methodDocumentation (m : Method) : List String :=
  let present (s : Option String) : Option String := s.filter fun s => !Text.isBlankText s
  let summary := (present m.summary).toList.map fun s => " " ++ Text.trim s
  let description := (present m.description).toList.flatMap fun s => "" :: documentationLines s
  (" [" ++ m.verb.text ++ "] " ++ m.path) :: summary ++ description

/-- The names and texts of the arguments in one part of a request, as a list. -/
def pairs (list : String) (arguments : List NamedArgument) : List Statement :=
  let binding := (if arguments.isEmpty then list else "mut " ++ list)
    ++ ": Vec<(String, String)>"
  .bind binding (.call "Vec::new" []) :: arguments.map (·.pushTo list)

/-- The body of a request; the last argument for it counts. -/
def payloadOf (arguments : List NamedArgument) : Statement :=
  match arguments.getLast? with
  | some a => a.payload
  | none   => .bind "payload: Option<Vec<u8>>" (.word "None")

/-- Sends the request. -/
def sendRequest (m : Method) : Expr :=
  .propagate (.method (.own "transport") "send"
    [.word (literal m.verb.text), .borrow (.word "url"), .borrow (.word "query"),
      .borrow (.word "headers"), .word "payload"])

/-- What is done with the response: an empty one may stand for a missing value. -/
def finish (m : Method) : List Statement :=
  let response := Expr.word "response"
  let decode : Statement := .result
    (.call "Ok" [.propagate (.call "serde_json::from_slice" [.borrow response])])
  match m.returns with
  | none      => [.run (sendRequest m), .result (.call "Ok" [.tuple []])]
  | some type =>
    let missing : List Statement :=
      if type.isNullable then
        [.when (.holds (.method response "is_empty" [])) [.line "return Ok(None);"]]
      else []
    .bind "response" (sendRequest m) :: missing ++ [decode]

def methodFunction (ns : TypeNames) (m : Method) (name : String) : Function :=
  let arguments := namedArguments m
  let carried (c : Carrier) : List NamedArgument := arguments.filter (·.argument.carrier = c)
  let returns := match m.returns with
    | none      => TypeExpr.unit
    | some type => ns.typeExpr false type
  { attributes := documentation (methodDocumentation m)
      ++ (if m.deprecated then [.plain "deprecated"] else [])
      ++ manyParameters arguments.length 6
    isPublic := true
    name
    receiver := some "&self"
    parameters := arguments.filterMap (·.parameter? ns)
    returns := .named "Result" [returns, .plain "ClientError"]
    body :=
      [.bind "path" ((carried .path).foldl NamedArgument.replaceIn (.word (literal m.path))),
        .bind "url" (.format "\"\x7b\x7d\x7b\x7d\"" [.own "base_url", .word "path"])]
      ++ pairs "query" (carried .query) ++ pairs "headers" (carried .header)
      ++ [payloadOf (carried .body)] ++ finish m }

/-! ## Items -/

/-- A client sends its requests through this. -/
def transportBound : Bound := { name := "T", trait := "Transport" }

def clientRecord (ns : TypeNames) : Record :=
  { attributes := documentation (documentationLines
      ("Typed client for the API. Every operation becomes one method; requests go through the "
        ++ "`Transport` it was built with."))
      ++ [.applied "derive" ["Debug", "Clone"]]
    name := ns.client
    bound := some transportBound
    fields := [
      { attributes := [], isPublic := false, name := "base_url", type := .plain "String" },
      { attributes := [], isPublic := false, name := "transport", type := .plain "T" }] }

/-- The functions that build a client and give access to its parts. -/
def clientFunctions (ns : TypeNames) : List Function :=
  let function (attributes : List Attribute) (name : String) (receiver : Option String)
      (parameters : List Parameter) (returns : TypeExpr) (body : List Statement) : Function :=
    { attributes, isPublic := true, name, receiver, parameters, returns, body }
  let transport : Parameter := ⟨"transport", .plain "T"⟩
  let base := Expr.word "base_url"
  [function [.doc " Client for [`DEFAULT_BASE_URL`]."] "new" none [transport] selfType
      [.result (.call "Self::with_base_url" [.word "DEFAULT_BASE_URL", .word "transport"])],
    function [] "with_base_url" none [⟨"base_url", .plain "impl Into<String>"⟩, transport] selfType
      [.bind "base_url: String" (.method base "into" []),
        .result (.construct ns.client
          [("base_url",
            some (.method (.method base "trim_end_matches" [.word "'/'"]) "to_owned" [])),
            ("transport", none)])],
    function [] "base_url" (some "&self") [] (.borrowed (.plain "str"))
      [.result (.borrow (.own "base_url"))],
    function [] "transport" (some "&self") [] (.borrowed (.plain "T"))
      [.result (.borrow (.own "transport"))]]

def clientItems (ns : TypeNames) (c : Client) : List Item :=
  -- the functions that every client has keep their names
  let names := snakeIdentifiers clientFunctionNames c.methodNames
  let methods := (c.methods.zip names).map fun (m, name) => methodFunction ns m name
  [.constant [.doc " Base endpoint declared by the schema document."] "DEFAULT_BASE_URL"
      c.baseEndpoint,
    .record (clientRecord ns),
    .implementation {
      bound := some transportBound
      trait := none
      type := .named ns.client [.plain "T"]
      functions := clientFunctions ns ++ methods }]

end TypedClient.Source
