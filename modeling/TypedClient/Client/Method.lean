import TypedClient.Client.MethodName
import TypedClient.Model.Resolution
import TypedClient.Schema.Media

/-! # Client methods

The method of the client for each operation that can be expressed as one. An operation that cannot
is skipped, with the reason; a reference that leads nowhere is a failure.
-/

namespace TypedClient

open Schema (Carrier Verb Operation)

structure Argument where
  /-- The name in the document. -/
  name : String
  carrier : Carrier
  /-- Not nullable in a path; elsewhere nullable unless required. -/
  type : ValueType
  required : Bool
  description : Option String
  deriving DecidableEq, Repr

structure Method where
  /-- In upper camel case, and no other method's name. -/
  name : String
  verb : Verb
  path : String
  id : Option String
  summary : Option String
  description : Option String
  deprecated : Bool
  /-- In the order of the document. -/
  arguments : List Argument
  /-- Missing if the operation declares no content. -/
  returns : Option ValueType
  deriving DecidableEq, Repr

/-- The argument that is the body of the request. -/
def Method.body? (m : Method) : Option Argument :=
  m.arguments.find? (·.carrier = .body)

def Method.argumentsIn (m : Method) (c : Carrier) : List Argument :=
  m.arguments.filter (·.carrier = c)

/-! ## Obstacles -/

/-- Why an operation has no method. -/
inductive Obstacle where
  | carrier (part : String) (c : Carrier)
  | notScalar (part : String) (type : ValueType)
  | badType (part : String) (fault : TypeFault)
  | secondBody
  | requestMedia (media : List String)
  | responseMedia (media : List String)
  | takenName (name : String)
  deriving DecidableEq, Repr

def Obstacle.message : Obstacle → String
  | .carrier part c      => part ++ " is passed in " ++ c.key
  | .notScalar part type =>
    part ++ " has type " ++ type.text ++ ", only primitives and arrays of primitives are supported"
  | .badType part fault  => part ++ " uses " ++ fault.message
  | .secondBody          => "more than one body parameter"
  | .requestMedia media  =>
    "request media type " ++ String.intercalate ", " media ++ " has no JSON form"
  | .responseMedia media =>
    "response media type " ++ String.intercalate ", " media ++ " has no JSON form"
  | .takenName name      => "method name " ++ quoted name ++ " is already taken"

/-- Either the operation alone is left out, or there is no client at all. -/
inductive Rejection where
  | skip (obstacle : Obstacle)
  | fatal (failure : Failure)
  deriving DecidableEq, Repr

/-! ## One operation -/

namespace Method

/-- The type of a part of an operation. -/
def typeOf (t : TypeTable) (o : Operation) (part : String) (type : Schema.TypeRef) :
    Except Rejection ValueType :=
  match t.typeOf type with
  | .ok type                  => .ok type
  | .error (.unresolved name) => .error (.fatal (.unresolved name (Resolution.partPlace o part)))
  | .error fault              => .error (.skip (.badType part fault))

/-- As `typeOf`, for a part that is written into a path, a query or a header. -/
def scalarTypeOf (t : TypeTable) (o : Operation) (part : String) (type : Schema.TypeRef) :
    Except Rejection ValueType := do
  let type ← typeOf t o part type
  if type.isScalarLike then .ok type else .error (.skip (.notScalar part type))

/-- The type of the argument for a parameter. -/
def argumentType (t : TypeTable) (o : Operation) (hasBody : Bool) (p : Schema.Parameter) :
    Except Rejection ValueType := do
  let part := Resolution.parameterName p
  let unlessRequired (type : ValueType) : ValueType := if p.required then type else type.orNull
  match p.carrier with
  | .formData | .cookie => .error (.skip (.carrier part p.carrier))
  | .path               => scalarTypeOf t o part p.type
  | .query | .header    => (scalarTypeOf t o part p.type).map unlessRequired
  | .body               =>
    if hasBody then .error (.skip .secondBody)
    else (typeOf t o part p.type).map unlessRequired

/-- The arguments for parameters, after some that have a body or not. -/
def argumentsFor (t : TypeTable) (o : Operation) (hasBody : Bool) :
    List Schema.Parameter → Except Rejection (List Argument)
  | [] => .ok []
  | p :: ps => do
    let type ← argumentType t o hasBody p
    let argument : Argument := {
      name := p.name
      carrier := p.carrier
      type
      required := p.required || p.carrier = .path
      description := p.description }
    .ok (argument :: (← argumentsFor t o (hasBody || p.carrier = .body) ps))

def returnsFor (t : TypeTable) (o : Operation) : Except Rejection (Option ValueType) := do
  match o.response with
  | none => .ok none
  | some r =>
    if !Schema.admitsJson o.responseMedia then
      .error (.skip (.responseMedia o.responseMedia))
    else
      let type ← typeOf t o "response" r.type
      .ok (some (if r.optional then type.orNull else type))

/-- The method for an operation. -/
def ofOperation (t : TypeTable) (o : Operation) : Except Rejection Method := do
  let arguments ← argumentsFor t o false o.parameters
  -- media types matter only where there is something to send
  if arguments.any (·.carrier = .body) && !Schema.admitsJson o.requestMedia then
    .error (.skip (.requestMedia o.requestMedia))
  let returns ← returnsFor t o
  .ok {
    name := o.methodName
    verb := o.verb
    path := o.path
    id := o.id
    summary := o.summary
    description := o.description
    deprecated := o.deprecated
    arguments, returns }

end Method

/-! ## All operations -/

/-- What becomes of an operation. -/
inductive Outcome where
  | generated (m : Method)
  | skipped (s : Skipped)
  deriving DecidableEq, Repr

namespace Outcome

def method? : Outcome → Option Method
  | .generated m => some m
  | .skipped _   => none

def skipped? : Outcome → Option Skipped
  | .generated _ => none
  | .skipped s   => some s

/-- The outcome for an operation; the first operation with a method name has it. -/
def ofOperation (t : TypeTable) (taken : List String) (o : Operation) : Except Failure Outcome :=
  let skip (obstacle : Obstacle) : Outcome := .skipped ⟨o.label, obstacle.message⟩
  match Method.ofOperation t o with
  | .ok m                   =>
    if m.name ∈ taken then .ok (skip (.takenName m.name)) else .ok (.generated m)
  | .error (.skip obstacle) => .ok (skip obstacle)
  | .error (.fatal failure) => .error failure

/-- The outcomes for operations, when some method names are taken. -/
def ofOperations (t : TypeTable) (taken : List String) :
    List Operation → Except Failure (List Outcome)
  | [] => .ok []
  | o :: os => do
    let outcome ← ofOperation t taken o
    -- a skipped operation takes no name
    let taken := outcome.method?.toList.map (·.name) ++ taken
    .ok (outcome :: (← ofOperations t taken os))

end Outcome

/-- The methods for operations, and the operations that are skipped. -/
def TypeTable.methods (t : TypeTable) (os : List Operation) :
    Except Failure (List Method × List Skipped) :=
  (Outcome.ofOperations t [] os).map fun outcomes =>
    (outcomes.filterMap Outcome.method?, outcomes.filterMap Outcome.skipped?)

end TypedClient
