import TypedClient.Data.Decoder

/-! # Shapes

A shape tells whether a node may stand in its place, without keeping anything of it. Parts of a
document that no type or operation depends on are only checked for their shape.
-/

namespace TypedClient

/-- Whether a node is admitted. -/
abbrev Shape := Data → Bool

/-- When a field may be missing. -/
inductive Presence where
  /-- The field must be there. -/
  | needed
  /-- The field may be missing or `null`. -/
  | optional
  /-- The field may be missing, but not `null` unless its shape admits it. -/
  | defaulted
  deriving DecidableEq

structure FieldShape where
  name : String
  presence : Presence
  shape : Shape

namespace Shape

def ofDecoder {α : Type} (d : Decoder α) : Shape := fun v => (d v).isSome

def text : Shape := ofDecoder Decoder.text
def flag : Shape := ofDecoder Decoder.flag
def json : Shape := Decoder.isJson
def count : Shape := ofDecoder Decoder.count

/-- `true` for a node that is admitted. -/
def require (s : Shape) (v : Data) : Option Bool := if s v then some true else none

def oneOf (words : List String) : Shape := fun v => v.asText?.any words.contains

def list (lenient : Bool) (item : Shape) : Shape :=
  fun v => (Decoder.items lenient v).any (·.all item)

def dict (lenient : Bool) (value : Shape) : Shape :=
  fun v => (Decoder.fields lenient v).any (·.all fun f => value f.2)

/-- Whether the fields admit one of theirs. -/
def field (f : FieldShape) (fs : Fields) : Bool :=
  match fs.lookup f.name with
  | none   => f.presence ≠ .needed
  | some v => (f.presence = .optional && v matches .null) || f.shape v

/-- Fields for extensions may hold any JSON. -/
def extensions (fs : Fields) : Bool :=
  fs.all fun f => !f.1.startsWith "x-" || json f.2

def fields (shapes : List FieldShape) (fs : Fields) : Bool :=
  shapes.all (field · fs) && extensions fs

/-- A mapping with the given fields; others do not matter. -/
def record (lenient : Bool) (shapes : List FieldShape) : Shape :=
  fun v => (Decoder.fields lenient v).any (fields shapes)

/-- A mapping in which the text of the field `tag` selects the fields that are expected. -/
def tagged (tag : String) (kinds : List (String × List FieldShape)) : Shape := fun v =>
  (Decoder.fields false v).any fun fs =>
    (((fs.lookup tag).bind Data.asText?).bind (kinds.lookup ·)).any fun shapes => fields shapes fs

/-- The value of the first field with one of the given names, and that name. -/
def firstField (names : List String) (fs : Fields) : Option (String × Data) :=
  fs.find? fun f => names.contains f.1

end Shape

def needed (name : String) (shape : Shape) : FieldShape := ⟨name, .needed, shape⟩
def optional (name : String) (shape : Shape) : FieldShape := ⟨name, .optional, shape⟩
def defaulted (name : String) (shape : Shape) : FieldShape := ⟨name, .defaulted, shape⟩

end TypedClient
