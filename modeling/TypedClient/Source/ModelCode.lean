import TypedClient.Source.Documentation
import TypedClient.Source.Identifier
import TypedClient.Source.Literal

/-! # Code of a model

A record with its fields, a function that builds it, and how it is written as text.
-/

namespace TypedClient.Source

namespace Expr

/-- A field of the value that a method is called on. -/
def own (name : String) : Expr := .field (.word "self") name

/-- A text filled in at the places of a pattern. -/
def format (pattern : String) (values : List Expr) : Expr :=
  .invoke "format" (.word pattern :: values)

end Expr

/-- Adds an entry to a list. -/
def Statement.push (list : String) (entry : Expr) : Statement :=
  .run (.method (.word list) "push" [entry])

/-- The type that a function belongs to. -/
def selfType : TypeExpr := .plain "Self"

def documentation (ls : List String) : List Attribute := ls.map .doc

/-- Accepts more parameters than a function usually has. -/
def manyParameters (count limit : Nat) : List Attribute :=
  if limit < count then [.applied "allow" ["clippy::too_many_arguments"]] else []

/-- A field with its name in the source. -/
structure NamedField where
  field : TypedClient.Field
  name : String

namespace NamedField

/-- The description, and the values that the field may have. -/
def documentation (f : NamedField) : List String :=
  let described := (f.field.description.map documentationLines).getD []
  let values := f.field.allowedValues.map fun v => "`" ++ v ++ "`"
  if values.isEmpty then described
  else
    described ++ (if described.isEmpty then [] else [""])
      ++ [" Allowed values: " ++ String.intercalate ", " values ++ "."]

/-- How the field is read and written: under its name in the document, and left out when it is
missing. -/
def serialization (f : NamedField) : List Attribute :=
  let renamed := if f.field.name = f.name then [] else ["rename = " ++ literal f.field.name]
  let omitted :=
    if f.field.isOptional then ["default", "skip_serializing_if = \"Option::is_none\""] else []
  let parts := renamed ++ omitted
  if parts.isEmpty then [] else [.applied "serde" parts]

def type (ns : TypeNames) (f : NamedField) : TypeExpr := ns.typeExpr f.field.cyclic f.field.type

def recordField (ns : TypeNames) (f : NamedField) : RecordField :=
  { attributes := Source.documentation f.documentation ++ f.serialization
    isPublic := true
    name := f.name
    type := f.type ns }

def parameter (ns : TypeNames) (f : NamedField) : Parameter :=
  { name := f.name, type := f.type ns }

/-- Adds the name and the text of a value to the parts of a record's text. -/
def pushValue (f : NamedField) (value : Expr) : Statement :=
  .push "parts"
    (.format "\"\x7b\x7d=\x7b\x7d\""
      [.word (literal f.field.name), .method value "render_value" []])

/-- Adds the field to the parts of a record's text, unless it is missing or null. -/
def push (f : NamedField) : Statement :=
  let own := Expr.own f.name
  let anyForm : Bool := f.field.type.nonNull = .primitive .json
  match f.field.isOptional, anyForm with
  | true, false => .when (.matched "Some(value)" (.borrow own)) [f.pushValue (.word "value")]
  | true, true  =>
    let present := Expr.method (.method own "as_ref" []) "filter"
      [.closure "|value| !value.is_null()"]
    .when (.matched "Some(value)" present) [f.pushValue (.word "value")]
  | false, true => .when (.holds (.negate (.method own "is_null" []))) [f.pushValue own]
  | false, false => f.pushValue own

end NamedField

/-! ## Items -/

/-- The fields of a model with their names in the source. -/
def namedFields (m : Model) : List NamedField :=
  (m.fields.zip (snakeIdentifiers [] (m.fields.map (·.name)))).map fun (field, name) =>
    { field, name }

def modelRecord (ns : TypeNames) (m : Model) : Record :=
  { attributes := documentation ((m.description.map documentationLines).getD [])
      ++ [.applied "derive" ["Debug", "Clone", "Default", "PartialEq", "serde::Serialize",
        "serde::Deserialize"]]
    name := ns.model m.name
    bound := none
    fields := (namedFields m).map (·.recordField ns) }

/-- The function that builds a model from a value for each field. -/
def modelConstructor (ns : TypeNames) (m : Model) : Function :=
  let fields := namedFields m
  { attributes := .doc " Creates a value with every field given in declaration order."
      :: manyParameters fields.length 7
    isPublic := true
    name := "new"
    receiver := none
    parameters := fields.map (·.parameter ns)
    returns := selfType
    body := [.result (.construct (ns.model m.name) (fields.map fun f => (f.name, none)))] }

/-- The function that writes a model as text. -/
def modelDisplay (m : Model) : Function :=
  let fields := namedFields m
  let name := Expr.word (literal m.name)
  let binding := (if fields.isEmpty then "parts" else "mut parts") ++ ": Vec<String>"
  let parts := Expr.word "parts"
  { attributes := []
    isPublic := false
    name := "fmt"
    receiver := some "&self"
    parameters := [⟨"f", .plain "&mut std::fmt::Formatter<'_>"⟩]
    returns := .plain "std::fmt::Result"
    body := .bind binding (.call "Vec::new" []) :: fields.map NamedField.push ++ [
      .choose (.method parts "is_empty" [])
        (.invoke "write" [.word "f", .word "\"\x7b\x7d \x7b\x7b \x7d\x7d\"", name])
        (.invoke "write" [.word "f", .word "\"\x7b\x7d \x7b\x7b \x7b\x7d \x7d\x7d\"", name,
          .method parts "join" [.word "\", \""]])] }

/-- The function that writes a model inside of another value. -/
def modelRendering : Function :=
  { attributes := []
    isPublic := false
    name := "render_value"
    receiver := some "&self"
    parameters := []
    returns := .plain "String"
    body := [.result (.method (.word "self") "to_string" [])] }

def modelItems (ns : TypeNames) (m : Model) : List Item :=
  let type := TypeExpr.plain (ns.model m.name)
  let implements (trait : Option String) (f : Function) : Item :=
    .implementation { bound := none, trait, type, functions := [f] }
  [.record (modelRecord ns m),
    implements none (modelConstructor ns m),
    implements (some "std::fmt::Display") (modelDisplay m),
    implements (some "RenderValue") modelRendering]

end TypedClient.Source
