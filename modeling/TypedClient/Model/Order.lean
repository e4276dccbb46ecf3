import TypedClient.Model.Table
import TypedClient.Search

/-! # Model declarations

The models of a table as declarations, ordered so that a model comes after those it depends on. In
a cycle of dependencies the model that is declared first comes first.
-/

namespace TypedClient

/-- A field of a model declaration. -/
structure Field where
  name : String
  type : ValueType
  required : Bool
  description : Option String
  allowedValues : List String
  /-- The value of the field may hold, through fields that hold models themselves, a value of the
  model it belongs to. -/
  cyclic : Bool
  deriving DecidableEq, Repr

/-- Whether a value may be left out when an instance is made. -/
def Field.isOptional (f : Field) : Bool := f.type.isNullable

/-- A model declaration. The order of the fields is the order of the constructor's arguments. -/
structure Model where
  name : String
  description : Option String
  fields : List Field
  deriving DecidableEq, Repr

/-- The first field of that name. -/
def Model.field? (m : Model) (name : String) : Option Field :=
  m.fields.find? (·.name = name)

namespace ModelEntry

/-! ## Order -/

/-- The other models of the list that a model depends on. -/
def waitsFor (remaining : List ModelEntry) (e : ModelEntry) : List String :=
  e.dependencies.filter fun name => name ≠ e.name && remaining.any (·.name = name)

/-- The dependencies of the model of that name, itself left out. -/
def dependenciesOf (models : List ModelEntry) (name : String) : List String :=
  match models.find? (·.name = name) with
  | some e => e.dependencies.filter (· ≠ name)
  | none   => []

/-- Whether a model depends on itself by way of other models of the list. -/
def onCycle (remaining : List ModelEntry) (e : ModelEntry) : Bool :=
  reaches (dependenciesOf remaining) e.name (remaining.map (·.name))
    (dependenciesOf remaining e.name)

/-- The model that comes next: the first one that waits for no other, or, when all wait, the first
one on a cycle. -/
def next? (remaining : List ModelEntry) : Option ModelEntry :=
  -- where all models wait some are on a cycle, so that the head is never needed
  ((remaining.find? fun e => (e.waitsFor remaining).isEmpty).or
    (remaining.find? (onCycle remaining))).or remaining.head?

theorem mem_of_next? {remaining : List ModelEntry} {e : ModelEntry}
    (h : next? remaining = some e) : e ∈ remaining := by
  unfold next? at h
  rw [Option.or_eq_some_iff, Option.or_eq_some_iff] at h
  rcases h with (h | ⟨_, h⟩) | ⟨_, h⟩
  · exact List.mem_of_find?_eq_some h
  · exact List.mem_of_find?_eq_some h
  · exact List.mem_of_mem_head? h

/-- The models of a list without one of them. -/
def others (remaining : List ModelEntry) (e : ModelEntry) : List ModelEntry :=
  remaining.filter (·.name ≠ e.name)

theorem others_length_lt {remaining : List ModelEntry} {e : ModelEntry} (h : e ∈ remaining) :
    (others remaining e).length < remaining.length :=
  List.length_filter_lt_length_iff_exists.2 ⟨e, h, by simp⟩

/-- The models of a list in the order of their declarations. -/
def ordered (remaining : List ModelEntry) : List ModelEntry :=
  match _h : next? remaining with
  | none   => []
  | some e => e :: ordered (others remaining e)
termination_by remaining.length
decreasing_by exact others_length_lt (mem_of_next? _h)

/-! ## Cyclic fields -/

/-- The models that the fields of the model of that name hold themselves. -/
def heldBy (models : List ModelEntry) (name : String) : List String :=
  match models.find? (·.name = name) with
  | some e => e.fields.filterMap (·.type.directModel?)
  | none   => []

/-- Whether a field of `owner` may hold a value of its owner. -/
def isCyclic (models : List ModelEntry) (owner : String) (f : FieldEntry) : Bool :=
  f.type.directModel?.any fun target =>
    reaches (heldBy models) owner (models.map (·.name)) [target]

end ModelEntry

/-- The declaration of a field of `owner`. -/
def FieldEntry.declare (models : List ModelEntry) (owner : String) (f : FieldEntry) : Field :=
  { name := f.name
    type := f.type
    required := f.required
    description := f.description
    allowedValues := f.allowedValues
    cyclic := ModelEntry.isCyclic models owner f }

def ModelEntry.declare (models : List ModelEntry) (e : ModelEntry) : Model :=
  { name := e.name
    description := e.description
    fields := e.fields.map (·.declare models e.name) }

/-- The declarations of all models of a table. -/
def TypeTable.declarations (t : TypeTable) : List Model :=
  (ModelEntry.ordered t.models.values).map (·.declare t.models.values)

end TypedClient
