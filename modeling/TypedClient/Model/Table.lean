import TypedClient.Failure
import TypedClient.Model.Type
import TypedClient.Schema.Document

/-! # The type table

The models of a document with all types resolved: each type is closed, and each alias stands for
its type.
-/

namespace TypedClient

open Schema (TypeRef)

/-- A field of a model in the type table. -/
structure FieldEntry where
  name : String
  type : ValueType
  required : Bool
  description : Option String
  /-- The texts that a value may have, when the document lists them. -/
  allowedValues : List String
  deriving DecidableEq, Repr

structure ModelEntry where
  name : String
  description : Option String
  /-- The inherited fields, then those of the model itself. -/
  fields : List FieldEntry
  /-- The models that the fields mention, in the order of their first mention. -/
  dependencies : List String
  deriving DecidableEq, Repr

structure TypeTable where
  models : OrderedMap ModelEntry
  aliases : OrderedMap ValueType
  /-- Each model stands under its own name. -/
  named : ∀ e ∈ models.entries, e.2.name = e.1

/-! ## Types -/

/-- Why a type cannot be resolved. -/
inductive TypeFault where
  | unresolved (name : String)
  | unknownPrimitive (name : String)
  | aliasCycle (name : String)
  deriving DecidableEq, Repr

namespace TypeFault

def message : TypeFault → String
  | .unresolved name       => "unresolved reference " ++ quoted name
  | .unknownPrimitive name => (Fault.unknownPrimitive name).message
  | .aliasCycle name       => (Fault.aliasCycle name).message

/-- The failure of a document that has the type at `place`. -/
def failureAt (place : Location) : TypeFault → Failure
  | .unresolved name       => .unresolved name place
  | .unknownPrimitive name => .malformed place (.unknownPrimitive name)
  | .aliasCycle name       => .malformed place (.aliasCycle name)

end TypeFault

namespace TypeTable

def empty : TypeTable := ⟨∅, ∅, fun _ h => nomatch h⟩

instance : Inhabited TypeTable := ⟨empty⟩

/-- The table of the given models, each under its name. -/
def ofModels (models : List ModelEntry) (aliases : OrderedMap ValueType) : TypeTable :=
  { models := .ofList (models.map fun m => (m.name, m))
    aliases
    named := by
      intro e he
      obtain ⟨m, _, rfl⟩ := List.mem_map.1 (OrderedMap.mem_ofList he)
      rfl }

def size (t : TypeTable) : Nat := t.models.size

def isEmpty (t : TypeTable) : Bool := t.models.isEmpty

/-- The place of a model in the table. -/
def position? (t : TypeTable) (name : String) : Option Nat := t.models.position? name

/-- The type that a reference stands for. -/
def referenceType (t : TypeTable) (name : String) : Except TypeFault ValueType :=
  if t.models.contains name then .ok (.model name)
  else
    match t.aliases.get? name with
    | some type => .ok type
    | none      => .error (.unresolved name)

/-- The resolved form of a type as the document writes it. -/
def typeOf (t : TypeTable) : TypeRef → Except TypeFault ValueType
  | .primitive name format _ =>
    match Primitive.ofSchema? name format with
    | some kind => .ok (.primitive kind)
    | none      => .error (.unknownPrimitive name)
  | .array items    => (t.typeOf items).map .array
  | .map values     => (t.typeOf values).map .map
  | .reference name => t.referenceType name
  | .any            => .ok (.primitive .json)

end TypeTable

end TypedClient
