import TypedClient.Data.Value
import TypedClient.OrderedMap

/-! # Decoding data

Decoders take a node of a document to a value of a type, or refuse it. No decoder makes a text from
a number, or a flag from a text. A lenient decoder takes `null` for an empty list or mapping; a
strict one does not.
-/

namespace TypedClient

abbrev Decoder (α : Type) := Data → Option α

/-- The entries of a mapping whose keys are all texts. -/
abbrev Fields := List (String × Data)

namespace Data

/-- The text of a key, with or without a tag. -/
def keyText? : Data → Option String
  | .text s     => some s
  | .tagged _ d => d.keyText?
  | _           => none

def textFields? (entries : List (Data × Data)) : Option Fields :=
  entries.mapM fun e => e.1.keyText?.map (·, e.2)

end Data

namespace Decoder

variable {α β : Type}

def text : Decoder String := Data.asText?

def flag : Decoder Bool
  | .bool b => some b
  | _       => none

/-- Any number. -/
def real : Decoder Float
  | .number (.int n)  => some (Float.ofInt n)
  | .number (.real x) => some x
  | _                 => none

/-- A whole number that is not negative. -/
def count : Decoder Nat
  | .number (.int n) => if 0 ≤ n then some n.toNat else none
  | _                => none

/-- A whole number in the range of a machine word with a sign. -/
def whole : Decoder Int
  | .number (.int n) => if n < Int.pow 2 63 then some n else none
  | _                => none

/-- `null` stands for no value. -/
def optional (d : Decoder α) : Decoder (Option α)
  | .null => some none
  | v     => (d v).map some

def items (lenient : Bool) : Decoder (List Data)
  | .list ds => some ds
  | .null    => if lenient then some [] else none
  | _        => none

def list (lenient : Bool) (d : Decoder α) : Decoder (List α) :=
  fun v => (items lenient v).bind (·.mapM d)

def fields (lenient : Bool) : Decoder Fields
  | .mapping es => Data.textFields? es
  | .null       => if lenient then some [] else none
  | _           => none

/-- A mapping from names to values. Of several values under one name, the last one counts. -/
def dict (lenient : Bool) (d : Decoder α) : Decoder (OrderedMap α) :=
  fun v => ((fields lenient v).bind (·.mapM fun e => (d e.2).map (e.1, ·))).map .ofList

mutual

/-- Whether a node can be written as JSON: all its keys are texts. -/
def isJson : Data → Bool
  | .list ds      => itemsAreJson ds
  | .mapping es   => entriesAreJson es
  | .tagged _ d   => isJson d
  | _             => true

def itemsAreJson : List Data → Bool
  | []      => true
  | d :: ds => isJson d && itemsAreJson ds

def entriesAreJson : List (Data × Data) → Bool
  | []           => true
  | (k, v) :: es => k.keyText?.isSome && isJson v && entriesAreJson es

end

/-- Any node that can be written as JSON. -/
def json : Decoder Data := fun d => if isJson d then some d else none

/-- The text of a text, number or flag; other values have none. -/
def scalarText : Data → Option String
  | .text s          => some s
  | .bool b          => some (toString b)
  | .number (.int n) => some (toString n)
  | .number (.real x) => if x.isFinite then some (RealStyle.value.write x) else none
  | _                => none

/-- The texts of the allowed values of a schema; values without a text are left out. -/
def allowedValues (lenient : Bool) : Decoder (List String) :=
  fun v => (list lenient json v).map (·.filterMap scalarText)

end Decoder

namespace Fields

variable {α : Type}

/-- The value of a field; `absent` when the field is not there. -/
def get (fs : Fields) (name : String) (d : Decoder α) (absent : α) : Option α :=
  match fs.lookup name with
  | none   => some absent
  | some v => d v

/-- The value of a field that must be there. -/
def need (fs : Fields) (name : String) (d : Decoder α) : Option α :=
  (fs.lookup name).bind d

/-- The value of a field that may be missing or `null`. -/
def get? (fs : Fields) (name : String) (d : Decoder α) : Option (Option α) :=
  fs.get name d.optional none

end Fields

end TypedClient
