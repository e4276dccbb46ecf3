import TypedClient.OrderedMap

/-! # Schema documents

What a document says, whichever dialect it is written in. Types still have the names the document
gives them; `Resolution` turns them into types that are known to exist.
-/

namespace TypedClient.Schema

/-- A type as the document writes it. -/
inductive TypeRef where
  | primitive (name : String) (format : Option String) (values : List String)
  | array (items : TypeRef)
  /-- A map from texts to `values`. -/
  | map (values : TypeRef)
  | reference (name : String)
  /-- A value of any shape. -/
  | any
  deriving DecidableEq, Repr, Inhabited

structure Property where
  name : String
  type : TypeRef
  required : Bool
  nullable : Bool
  description : Option String
  deriving DecidableEq, Repr

/-- An object schema. `bases` are the definitions it extends. -/
structure Definition where
  name : String
  description : Option String
  bases : List String
  properties : List Property
  deriving DecidableEq, Repr

/-- The first property of that name. -/
def Definition.property? (d : Definition) (name : String) : Option Property :=
  d.properties.find? (·.name = name)

/-- Gives a property list one more declaration: it takes the place of an earlier one of the same
name, else it comes last. -/
def declareProperty (properties : List Property) (p : Property) : List Property :=
  match properties with
  | [] => [p]
  | q :: qs => if q.name = p.name then p :: qs else q :: declareProperty qs p

/-! ## Operations -/

inductive Verb where
  | get
  | put
  | post
  | delete
  | options
  | head
  | patch
  | trace
  deriving DecidableEq, Repr

namespace Verb

def all : List Verb := [.get, .put, .post, .delete, .options, .head, .patch, .trace]

def text : Verb → String
  | .get     => "GET"
  | .put     => "PUT"
  | .post    => "POST"
  | .delete  => "DELETE"
  | .options => "OPTIONS"
  | .head    => "HEAD"
  | .patch   => "PATCH"
  | .trace   => "TRACE"

/-- A text in lower case. -/
def lowerCase (s : String) : String := String.ofList (s.toList.map Char.toLower)

/-- The key of a path item that declares the verb. -/
def key (v : Verb) : String := lowerCase v.text

/-- Keys are read in any mix of upper and lower case. -/
def ofKey? (key : String) : Option Verb :=
  all.find? fun v => v.key = lowerCase key

end Verb

/-- The part of a request that carries a parameter. -/
inductive Carrier where
  | path
  | query
  | header
  | body
  | formData
  | cookie
  deriving DecidableEq, Repr

namespace Carrier

def all : List Carrier := [.path, .query, .header, .body, .formData, .cookie]

def key : Carrier → String
  | .path     => "path"
  | .query    => "query"
  | .header   => "header"
  | .body     => "body"
  | .formData => "formData"
  | .cookie   => "cookie"

def ofKey? (key : String) : Option Carrier :=
  all.find? (·.key = key)

end Carrier

structure Parameter where
  name : String
  carrier : Carrier
  type : TypeRef
  required : Bool
  description : Option String
  deriving DecidableEq, Repr

/-- What a successful call returns; `optional` if it may come back without content. -/
structure Response where
  type : TypeRef
  optional : Bool
  deriving DecidableEq, Repr

structure Operation where
  verb : Verb
  path : String
  id : Option String
  summary : Option String
  description : Option String
  deprecated : Bool
  parameters : List Parameter
  /-- The media types a request body may be sent as. -/
  requestMedia : List String
  response : Option Response
  /-- The media types of the response. -/
  responseMedia : List String
  deriving DecidableEq, Repr

/-- Names an operation in messages: `POST /pet (addPet)`. -/
def Operation.label (o : Operation) : String :=
  match o.id with
  | some id => o.verb.text ++ " " ++ o.path ++ " (" ++ id ++ ")"
  | none    => o.verb.text ++ " " ++ o.path

/-! ## Documents -/

structure Document where
  /-- Declared object schemas in the order of the document, then those made from inline ones. -/
  definitions : OrderedMap Definition
  /-- Schemas that are no objects; a reference to one stands for its type. -/
  aliases : OrderedMap TypeRef
  operations : List Operation
  baseEndpoint : Option String
  title : Option String

/-- Whether `name` is a definition or an alias. -/
def Document.knows (d : Document) (name : String) : Bool :=
  d.definitions.contains name || d.aliases.contains name

end TypedClient.Schema
