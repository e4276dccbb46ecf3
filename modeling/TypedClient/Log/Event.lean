/-! # Log events

What the program reports while it runs.
-/

namespace TypedClient.Log

/-- How important an event is. -/
inductive Level where
  | error
  | warn
  | info
  | debug
  | trace
  deriving DecidableEq, Repr

namespace Level

def name : Level → String
  | .error => "ERROR"
  | .warn  => "WARN"
  | .info  => "INFO"
  | .debug => "DEBUG"
  | .trace => "TRACE"

/-- The less important, the higher. -/
def rank : Level → Nat
  | .error => 1
  | .warn  => 2
  | .info  => 3
  | .debug => 4
  | .trace => 5

end Level

/-- What the program calls itself in its log. -/
def program : String := "oapi_client_generator"

/-- The name of a part of the program. -/
def part (name : String) : String := program ++ "::" ++ name

structure Event where
  level : Level
  /-- The part of the program that reports the event. -/
  source : String
  message : String
  /-- Named values, in order. -/
  fields : List (String × String) := []
  deriving DecidableEq, Repr

/-- Work that events are a part of. -/
structure Span where
  name : String
  fields : List (String × String)
  deriving DecidableEq, Repr

namespace Span

def level : Level := .info

def source : String := program

end Span

/-- An event, and the work it is a part of. -/
structure Entry where
  span : Option Span := none
  event : Event
  deriving DecidableEq, Repr

/-- Named values as text. -/
def fieldsText (fields : List (String × String)) : String :=
  String.intercalate " " (fields.map fun (name, value) => name ++ "=" ++ value)

def Span.text (s : Span) : String := s.name ++ "\x7b" ++ fieldsText s.fields ++ "\x7d"

/-- The line for an event. -/
def Event.line (e : Event) (span : Option Span) : String :=
  let within := (span.map fun s => s.text ++ ": ").getD ""
  let fields := if e.fields.isEmpty then "" else " " ++ fieldsText e.fields
  e.level.name ++ " " ++ within ++ e.source ++ ": " ++ e.message ++ fields

end TypedClient.Log
