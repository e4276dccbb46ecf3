/-! # Value types

The types of fields, parameters and results. A model type names a model of the type table.
-/

namespace TypedClient

inductive Primitive where
  | text
  | integer
  | real
  | flag
  /-- A text that holds a date, with or without a time. -/
  | time
  /-- JSON of any shape. -/
  | json
  deriving DecidableEq, Repr

namespace Primitive

def all : List Primitive := [.text, .integer, .real, .flag, .time, .json]

def name : Primitive → String
  | .text    => "String"
  | .integer => "Int64"
  | .real    => "Float64"
  | .flag    => "Bool"
  | .time    => "DateTime"
  | .json    => "Json"

/-- The primitive that a document calls `name`. -/
def ofSchema? (name : String) (format : Option String) : Option Primitive :=
  match name with
  | "string" =>
    if format = some "date-time" ∨ format = some "date" then some .time else some .text
  | "integer" => some .integer
  | "number"  => some .real
  | "boolean" => some .flag
  | "object"  => some .json
  | _         => none

end Primitive

inductive ValueType where
  | primitive (kind : Primitive)
  | array (items : ValueType)
  /-- A map from texts to `values`. -/
  | map (values : ValueType)
  | nullable (inner : ValueType)
  | model (name : String)
  deriving DecidableEq, Repr, Inhabited

namespace ValueType

/-- Writes a type for messages: `Nullable(ArrayOf(ModelReference(Pet)))`. -/
def text : ValueType → String
  | .primitive kind => kind.name
  | .array items    => "ArrayOf(" ++ items.text ++ ")"
  | .map values     => "MapOf(" ++ values.text ++ ")"
  | .nullable inner => "Nullable(" ++ inner.text ++ ")"
  | .model name     => "ModelReference(" ++ name ++ ")"

/-- The type with `null` added, once. -/
def orNull : ValueType → ValueType
  | .nullable inner => .nullable inner
  | t               => .nullable t

def isNullable : ValueType → Bool
  | .nullable _ => true
  | _           => false

/-- The type without an outer `nullable`. -/
def nonNull : ValueType → ValueType
  | .nullable inner => inner
  | t               => t

/-- The model that a value of the type holds itself, not in an array or map. -/
def directModel? (t : ValueType) : Option String :=
  match t.nonNull with
  | .model name => some name
  | _           => none

/-- The model that the type mentions at any depth. A type mentions at most one. -/
def model? : ValueType → Option String
  | .primitive _    => none
  | .array items    => items.model?
  | .map values     => values.model?
  | .nullable inner => inner.model?
  | .model name     => some name

/-- Adds the model that the type mentions to those already listed. -/
def addModels (listed : List String) (t : ValueType) : List String :=
  match t.model? with
  | some name => if name ∈ listed then listed else listed ++ [name]
  | none      => listed

/-- Whether a value of the type fits into a path, a query or a header: a primitive other than JSON,
or an array of those. -/
def isScalarLike (t : ValueType) : Bool :=
  let isScalar : ValueType → Bool
    | .primitive kind => kind ≠ .json
    | _               => false
  match t.nonNull with
  | .array items => isScalar items.nonNull
  | t            => isScalar t

end ValueType

end TypedClient
