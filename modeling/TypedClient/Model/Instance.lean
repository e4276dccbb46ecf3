import TypedClient.Data.JsonText
import TypedClient.Model.Order

/-! # Instances

Instances of models as JSON objects: making one from positional arguments, and writing one as a
line of text such as `Tag { id=1, name=dog }`.
-/

namespace TypedClient

/-- Why no instance can be made. -/
inductive ConstructFault where
  | arity (model : String) (expected found : Nat)
  | missing (model field : String)
  deriving DecidableEq, Repr

def ConstructFault.message : ConstructFault → String
  | .arity model expected found =>
    model ++ " takes " ++ toString expected ++ " arguments, got " ++ toString found
  | .missing model field => model ++ "." ++ field ++ " is required"

/-- The entries of an instance. Only an optional field may have no argument. -/
def Model.entries (model : String) :
    List (Field × Option Data) → Except ConstructFault (List (String × Data))
  | [] => .ok []
  | (f, some value) :: rest => (Model.entries model rest).map ((f.name, value) :: ·)
  | (f, none) :: rest =>
    if f.isOptional then Model.entries model rest else .error (.missing model f.name)

/-- The instance with the given arguments, one for each field in order. -/
def Model.construct (m : Model) (args : List (Option Data)) : Except ConstructFault Data :=
  if args.length ≠ m.fields.length then .error (.arity m.name m.fields.length args.length)
  else
    (Model.entries m.name (m.fields.zip args)).map fun entries =>
      .mapping (entries.foldl (fun known e => Data.putEntry known (.text e.1) e.2) [])

/-! ## Rendering -/

theorem Data.sizeOf_lookup {key : String} {entries : List (Data × Data)} {d : Data}
    (h : Data.lookup key entries = some d) : sizeOf d < sizeOf entries := by
  fun_induction Data.lookup key entries with
  | case1 => simp at h
  | case2 => simp at h; subst h; simp; omega
  | case3 k v rest _ ih => have := ih h; simp; omega
  | case4 e rest _ ih => have := ih h; simp; omega

theorem Data.sizeOf_get? {key : String} {instance_ d : Data}
    (h : instance_.get? key = some d) : sizeOf d < sizeOf instance_ := by
  cases instance_ with
  | mapping es =>
    have := Data.sizeOf_lookup (show Data.lookup key es = some d from h)
    simp
    omega
  | _ => simp [Data.get?, Data.entries?] at h

/-- The parts of a rendering between braces. -/
def braced (name : String) (parts : List String) : String :=
  let space := if parts.isEmpty then "" else " "
  name ++ " \x7b" ++ space ++ String.intercalate ", " parts ++ " \x7d"

mutual

/-- Renders an instance: the fields in order of declaration, without those that are absent or
`null`. Nested models are looked up in `models`. -/
def Model.render (models : List Model) (m : Model) (instance_ : Data) : String :=
  braced m.name (renderFields models instance_ m.fields)
termination_by (sizeOf instance_, 1, 0)

def renderFields (models : List Model) (instance_ : Data) (fields : List Field) : List String :=
  match fields with
  | []      => []
  | f :: fs =>
    match h : instance_.get? f.name with
    | none | some .null => renderFields models instance_ fs
    | some value        =>
      have := Data.sizeOf_get? h
      (f.name ++ "=" ++ renderValue models f.type value) :: renderFields models instance_ fs
termination_by (sizeOf instance_, 0, fields.length)

/-- Renders a value by its type. A value that does not fit its type is written as JSON. -/
def renderValue (models : List Model) (type : ValueType) (value : Data) : String :=
  match type, value with
  | _,                .null            => "null"
  | .nullable inner,  value            => renderValue models inner value
  | .primitive .json, value            => Json.write value
  | .primitive _,     .text s          => s
  | .primitive .real, .number (.int n) => RealStyle.plain.write (Float.ofInt n)
  | .primitive .real, .number (.real x) => RealStyle.plain.write x
  | .array items,     .list ds         =>
    "[" ++ String.intercalate ", " (renderItems models items ds) ++ "]"
  | .map values,      .mapping es      =>
    let sorted := (renderEntries models values es).mergeSort fun a b => !(b.1 < a.1)
    "\x7b" ++ String.intercalate ", " (sorted.map fun e => e.1 ++ "=" ++ e.2) ++ "\x7d"
  | .model name,      .mapping es      =>
    match models.find? (·.name = name) with
    | some m => m.render models (.mapping es)
    | none   => Json.write (.mapping es)
  | _,                value            => Json.write value
termination_by (sizeOf value, 2, sizeOf type)

def renderItems (models : List Model) (type : ValueType) (items : List Data) : List String :=
  match items with
  | []      => []
  | d :: ds => renderValue models type d :: renderItems models type ds
termination_by (sizeOf items, 0, 0)

def renderEntries (models : List Model) (type : ValueType) (entries : List (Data × Data)) :
    List (String × String) :=
  match entries with
  | []           => []
  | (k, v) :: es =>
    let rest := renderEntries models type es
    match k.keyText? with
    | some name => (name, renderValue models type v) :: rest
    | none      => rest
termination_by (sizeOf entries, 0, 0)

end

end TypedClient
