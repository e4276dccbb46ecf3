import TypedClient.Failure

/-! # References

A reference is a JSON pointer into the document itself. It names an entry of one of the sections
that hold entries of its kind.
-/

namespace TypedClient.Schema

/-- What a reference must lead to. -/
inductive ReferenceKind where
  | schema
  | parameter
  | response
  | requestBody
  deriving DecidableEq, Repr

/-- The sections that hold entries of a kind, one for each dialect. -/
def ReferenceKind.sections : ReferenceKind → List String
  | .schema      => ["#/definitions/", "#/components/schemas/"]
  | .parameter   => ["#/parameters/", "#/components/parameters/"]
  | .response    => ["#/responses/", "#/components/responses/"]
  | .requestBody => ["#/components/requestBodies/"]

namespace Pointer

/-- Writes a name as one token of a pointer. -/
def escape : List Char → List Char
  | [] => []
  | '~' :: cs => '~' :: '0' :: escape cs
  | '/' :: cs => '~' :: '1' :: escape cs
  | c :: cs => c :: escape cs

/-- Replaces the pair of characters `a`, `b` by `c`. -/
def replacePair (a b c : Char) : List Char → List Char
  | [] => []
  | [x] => [x]
  | x :: y :: cs =>
    if x = a ∧ y = b then c :: replacePair a b c cs else x :: replacePair a b c (y :: cs)

/-- Reads a token. The escape of the tilde is undone last, so that `~01` stands for `~1`. -/
def unescape (token : List Char) : List Char :=
  replacePair '~' '0' '~' (replacePair '~' '1' '/' token)

end Pointer

/-- The name of the entry that a reference of this kind leads to: what follows the section, when
that is one token. -/
def ReferenceKind.target? (kind : ReferenceKind) (reference : String) : Option String :=
  match kind.sections.findSome? (fun s => s.toList.isPrefixOf? reference.toList) with
  | some token =>
    if token.isEmpty || token.contains '/' then none
    else some (String.ofList (Pointer.unescape token))
  | none => none

/-- As `target?`; a reference that leads nowhere is a fault of the document. -/
def ReferenceKind.target (kind : ReferenceKind) (reference : String) (place : Location) :
    Except Failure String :=
  match kind.target? reference with
  | some name => .ok name
  | none      => .error (.malformed place (.reference reference))

end TypedClient.Schema
