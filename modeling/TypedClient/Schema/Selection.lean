import TypedClient.Schema.Document

/-! # Parameters and responses of an operation

How the parameters of a path and of one of its operations combine, and which of the declared
responses a client method returns.
-/

namespace TypedClient.Schema

/-- Two parameters with the same name and carrier are one parameter. -/
def Parameter.sameAs (p q : Parameter) : Bool :=
  p.name = q.name && p.carrier = q.carrier

/-- Adds one parameter: it takes the place of the same parameter, else it comes last. -/
def overrideParameter (parameters : List Parameter) (p : Parameter) : List Parameter :=
  match parameters with
  | [] => [p]
  | q :: qs => if q.sameAs p then p :: qs else q :: overrideParameter qs p

/-- The parameters of an operation: those of its path, overridden by its own. -/
def mergeParameters (inherited own : List Parameter) : List Parameter :=
  own.foldl overrideParameter inherited

/-! ## Responses -/

inductive ResponseClass where
  | success
  | fallback
  | other
  deriving DecidableEq, Repr

/-- The class of a response by its key. -/
def ResponseClass.ofKey (key : String) : ResponseClass :=
  if key = "default" then .fallback
  else if key.toList.head? = some '2' then .success
  else .other

/-- Picks the response that a method returns: the first successful one with a schema, or else, when
no success is declared, the fallback with a schema. `declared` says for each response whether it
has a schema; the result is a position in it and whether a call may succeed without content. -/
def selectResponse (declared : List (ResponseClass × Bool)) : Option (Nat × Bool) :=
  match declared.findIdx? (fun r => r.1 = .success && r.2) with
  | some index => some (index, declared.any fun r => r.1 = .success && !r.2)
  | none =>
    if declared.any (·.1 = .success) then none
    else (declared.findIdx? fun r => r.1 = .fallback && r.2).map (·, true)

end TypedClient.Schema
