import TypedClient.Client.Surface
import TypedClient.FreshName
import TypedClient.Model.Order
import TypedClient.OrderedMap
import TypedClient.Source.Support
import TypedClient.Source.Syntax
import TypedClient.Text.Casing

/-! # Identifiers

The names of models, fields, methods and arguments in the generated source. Names of a document may
be of any form; an identifier is made of letters, digits and low lines, is no keyword, and differs
from the other identifiers of its scope.
-/

namespace TypedClient.Source

def keywords : List String :=
  ["abstract", "as", "async", "await", "become", "box", "break", "const", "continue", "crate", "do",
    "dyn", "else", "enum", "extern", "false", "final", "fn", "for", "gen", "if", "impl", "in", "let",
    "loop", "macro", "match", "mod", "move", "mut", "override", "priv", "pub", "ref", "return",
    "self", "Self", "static", "struct", "super", "trait", "true", "try", "type", "typeof", "unsafe",
    "unsized", "use", "virtual", "where", "while", "yield"]

/-- The identifier for a name: other characters are dropped, and `fallback` stands for a name of which
nothing is left and before one that begins with a digit. -/
def identifier (fallback name : String) : String :=
  let kept := name.toList.filter fun c => c.isAlphanum || c == '_'
  if kept.all (· == '_') then fallback
  else
    let s := String.ofList (if kept.head?.any Char.isDigit then fallback.toList ++ kept else kept)
    if s ∈ keywords then s ++ "_" else s

/-- The names to try for `base`: itself, with a suffix, with a suffix and a number. -/
def candidate (base suffix : String) : Nat → String
  | 0     => base
  | n + 1 => numbered (base ++ suffix) n

/-- Identifiers in order, each different from those taken and those before it. -/
def distinctFrom (suffix : String) (taken : List String) : List String → List String
  | []            => []
  | base :: bases =>
    let s := freshName taken (candidate base suffix)
    s :: distinctFrom suffix (s :: taken) bases

/-- The identifier in snake case for a name. -/
def snakeIdentifier (name : String) : String :=
  let s := Text.snake name
  identifier "field" (if s.toList.head?.any Char.isDigit then "_" ++ s else s)

/-- The identifiers in snake case for the names of one scope, in which some are reserved. -/
def snakeIdentifiers (reserved names : List String) : List String :=
  distinctFrom "_" reserved (names.map snakeIdentifier)

def modelIdentifier (name : String) : String := identifier "Model" (Text.upperCamel name)

/-! ## Names of types -/

/-- The identifiers of the types in one source. -/
structure TypeNames where
  client : String
  models : OrderedMap String

namespace TypeNames

/-- The identifiers for models and a client. Of several models with one name, the last one counts. -/
def ofModels (models : List Model) (c : Client) : TypeNames :=
  let client := identifier "Client" (Text.upperCamel c.name)
  let names := models.map (·.name)
  -- the client and what every source contains have their names first
  let identifiers := distinctFrom "Model" (client :: Support.names) (names.map modelIdentifier)
  { client, models := .ofList (names.zip identifiers) }

/-- The identifier of a model. -/
def model (ns : TypeNames) (name : String) : String :=
  (ns.models.get? name).getD (modelIdentifier name)

/-- The type of values of a type. With `boxed`, a model that the type holds itself stands behind a
pointer, so that the size of a type that contains itself is finite. -/
def typeExpr (ns : TypeNames) (boxed : Bool) : ValueType → TypeExpr
  | .primitive .text    => .plain "String"
  | .primitive .time    => .plain "String"
  | .primitive .integer => .plain "i64"
  | .primitive .real    => .plain "f64"
  | .primitive .flag    => .plain "bool"
  | .primitive .json    => .plain "serde_json::Value"
  | .array items        => .vector (ns.typeExpr false items)
  | .map values         => .mapTo (ns.typeExpr false values)
  | .nullable inner     => .option (ns.typeExpr boxed inner)
  | .model name         =>
    let t := TypeExpr.plain (ns.model name)
    if boxed then t.boxed else t

end TypeNames

end TypedClient.Source
