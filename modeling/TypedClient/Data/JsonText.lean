import TypedClient.Data.Decoder

/-! # Data as JSON text

The compact JSON text of a value: no blanks, the keys of a mapping sorted, and only quotes,
backslashes and control characters escaped.
-/

namespace TypedClient.Json

/-- A character of a text as JSON writes it. -/
def escape (c : Char) : List Char :=
  if c = '"' then ['\\', '"']
  else if c = '\\' then ['\\', '\\']
  else if c = '\x08' then ['\\', 'b']
  else if c = '\x0c' then ['\\', 'f']
  else if c = '\n' then ['\\', 'n']
  else if c = '\r' then ['\\', 'r']
  else if c = '\t' then ['\\', 't']
  else if c.toNat < 0x20 then
    ['\\', 'u', '0', '0', Nat.digitChar (c.toNat / 16), Nat.digitChar (c.toNat % 16)]
  else [c]

def quote (s : String) : String :=
  String.ofList ('"' :: s.toList.flatMap escape ++ ['"'])

/-- A number; what is not finite has no JSON form. -/
def numberText : Number → String
  | .int n  => toString n
  | .real x => if x.isFinite then RealStyle.value.write x else "null"

/-- Entries with their values already written, as the entries of an object in this order. -/
def record (entries : List (String × String)) : String :=
  "\x7b" ++ String.intercalate "," (entries.map fun e => quote e.1 ++ ":" ++ e.2) ++ "\x7d"

/-- The same with the keys sorted. -/
def object (entries : List (String × String)) : String :=
  record (entries.mergeSort fun a b => !(b.1 < a.1))

mutual

def write : Data → String
  | .null       => "null"
  | .bool b     => toString b
  | .number n   => numberText n
  | .text s     => quote s
  | .list items => "[" ++ String.intercalate "," (writeItems items) ++ "]"
  | .mapping es => object (writeEntries es)
  | .tagged _ d => write d

def writeItems : List Data → List String
  | []      => []
  | d :: ds => write d :: writeItems ds

/-- Keys that are no texts have no JSON form. -/
def writeEntries : List (Data × Data) → List (String × String)
  | []           => []
  | (k, v) :: es =>
    match k.keyText? with
    | some name => (name, write v) :: writeEntries es
    | none      => writeEntries es

end

end TypedClient.Json
