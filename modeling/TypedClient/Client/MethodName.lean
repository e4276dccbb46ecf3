import TypedClient.Text.Casing
import TypedClient.Schema.Document

/-! # Method names

The name of the client method for an operation: the operation's id in upper camel case, or else a
word for the verb followed by the words of the path.
-/

namespace TypedClient

open Schema

/-- The word that begins the name of a method without an id. -/
def Schema.Verb.word : Verb → String
  | .get     => "Get"
  | .post    => "Add"
  | .put     => "Update"
  | .patch   => "Patch"
  | .delete  => "Delete"
  | .head    => "Head"
  | .options => "Options"
  | .trace   => "Trace"

/-- The text between braces, if `segment` is in braces. -/
def placeholder? (segment : List Char) : Option (List Char) :=
  match segment with
  | '{' :: rest => if rest.getLast? = some '}' then some rest.dropLast else none
  | _ => none

/-- The words of one path segment; a placeholder `{id}` reads `ById`. -/
def segmentName (segment : List Char) : List Char :=
  match placeholder? segment with
  | some name => 'B' :: 'y' :: Text.upperCamelChars name
  | none      => Text.upperCamelChars segment

/-- The words of a path; a path without words reads `Root`. -/
def pathName (path : String) : String :=
  match (path.toList.splitOn '/').flatMap segmentName with
  | []   => "Root"
  | name => String.ofList name

/-- `addPet` names `AddPet`; without an id, `GET /pet/{petId}` names `GetPetByPetId`. -/
def methodName (id : Option String) (verb : Verb) (path : String) : String :=
  match id.map Text.upperCamel with
  | some name => if name.isEmpty then verb.word ++ pathName path else name
  | none      => verb.word ++ pathName path

def Schema.Operation.methodName (o : Operation) : String :=
  TypedClient.methodName o.id o.verb o.path

end TypedClient
