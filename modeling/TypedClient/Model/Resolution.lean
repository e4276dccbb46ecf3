import TypedClient.Model.Table
import TypedClient.Visited

/-! # Resolution

Builds the type table of a schema document. References become models or the types of aliases, and
what a definition inherits is written out. What has been found for an alias or a definition is kept
and looked up the next time. The first reference that leads nowhere is a failure.
-/

namespace TypedClient

open Schema (TypeRef Property Definition)

theorem mem_of_lookup {α : Type} {entries : List (String × α)} {name : String} {a : α}
    (h : entries.lookup name = some a) : name ∈ entries.map Prod.fst := by
  induction entries with
  | nil => simp at h
  | cons e es ih =>
    obtain ⟨k, v⟩ := e
    rw [List.lookup_cons] at h
    by_cases hk : name = k
    · simp [hk]
    · have : (name == k) = false := by simp [hk]
      rw [this] at h
      simp only at h
      exact List.mem_cons_of_mem _ (ih h)

/-- What is known of a document while it is resolved. -/
structure Resolver where
  /-- The types of aliases. -/
  aliases : OrderedMap ValueType := ∅
  /-- The properties of definitions, inherited ones first. -/
  properties : OrderedMap (List Property) := ∅
  /-- The models of definitions. -/
  models : List ModelEntry := []

/-- A step of a resolution. What it finds is kept, also when it fails later. -/
abbrev Resolving (ε : Type) := ExceptT ε (StateM Resolver)

namespace Resolution

/-! ## Types -/

/-- How many types there are from a type to what its arrays and maps hold in the end. -/
def depth : TypeRef → Nat
  | .array items => depth items + 1
  | .map values  => depth values + 1
  | _            => 1

/-- The steps from an alias until the next one at most. -/
def aliasWeight (d : Schema.Document) (name : String) : Nat :=
  match d.aliases.get? name with
  | some t => depth t + 1
  | none   => 0

mutual

/-- The resolved form of a type. `visited` are the aliases on the way to it. -/
def typeWithin (d : Schema.Document) (visited : List String) (t : TypeRef) :
    Resolving TypeFault ValueType :=
  match t with
  | .primitive name format _ =>
    match Primitive.ofSchema? name format with
    | some kind => pure (.primitive kind)
    | none      => throw (.unknownPrimitive name)
  | .array items    => .array <$> typeWithin d visited items
  | .map values     => .map <$> typeWithin d visited values
  | .any            => pure (.primitive .json)
  | .reference name =>
    -- a definition hides an alias of its name
    if d.definitions.contains name then pure (.model name) else aliasWithin d visited name
termination_by unvisited (aliasWeight d) visited d.aliases.names + depth t
decreasing_by all_goals simp only [depth]; omega

/-- The type that an alias stands for. -/
def aliasWithin (d : Schema.Document) (visited : List String) (name : String) :
    Resolving TypeFault ValueType := do
  match (← get).aliases.get? name with
  -- found on another way to the alias, where it is the same
  | some type => pure type
  | none =>
    match _h : d.aliases.get? name with
    | none   => throw (.unresolved name)
    | some t =>
      if _hv : name ∈ visited then throw (.aliasCycle name)
      else
        let type ← typeWithin d (name :: visited) t
        modify fun r => { r with aliases := r.aliases.insert name type }
        pure type
termination_by unvisited (aliasWeight d) visited d.aliases.names
decreasing_by
  have hmem : name ∈ d.aliases.names := mem_of_lookup _h
  have := unvisited_cons_add_le (aliasWeight d) hmem _hv
  simp only [aliasWeight, _h] at this
  omega

end

/-- A type of the document at `place`. -/
def at_ {α : Type} (place : Location) (x : Resolving TypeFault α) : Resolving Failure α :=
  x.adapt (·.failureAt place)

/-- The values that a type lists, also as the item of an array. -/
def allowedValues : TypeRef → List String
  | .primitive _ _ values => values
  | .array items          => allowedValues items
  | _                     => []

/-! ## Inheritance -/

def definitionPlace (name : String) : Location := ⟨"definitions." ++ name⟩

/-- Why `base` cannot be extended by `name`. -/
def baseFailure (d : Schema.Document) (name base : String) : Failure :=
  let place := (definitionPlace name).key "allOf"
  if d.aliases.contains base then .malformed place (.notObject base) else .unresolved base place

/-- The steps from a definition through its bases at most, apart from those within a base. -/
def definitionWeight (d : Schema.Document) (name : String) : Nat :=
  match d.definitions.get? name with
  | some definition => definition.bases.length + 2
  | none            => 0

mutual

/-- The properties of a definition with those it inherits. A property that is declared again keeps
its place and takes the new declaration. `visited` are the definitions that extend this one, on the
way to it. -/
def propertiesWithin (d : Schema.Document) (visited : List String) (name : String) :
    Resolving Failure (List Property) := do
  match (← get).properties.get? name with
  -- found on another way to the definition
  | some properties => pure properties
  | none =>
    match _h : d.definitions.get? name with
    | none => throw (.unresolved name (definitionPlace name))
    | some definition =>
      if _hv : name ∈ visited then
        throw (.malformed (definitionPlace name) (.inheritanceCycle name))
      else
        let inherited ← inheritedFrom d (name :: visited) name definition.bases []
        let properties := definition.properties.foldl Schema.declareProperty inherited
        modify fun r => { r with properties := r.properties.insert name properties }
        pure properties
termination_by unvisited (definitionWeight d) visited d.definitions.names
decreasing_by
  have hmem : name ∈ d.definitions.names := mem_of_lookup _h
  have := unvisited_cons_add_le (definitionWeight d) hmem _hv
  simp only [definitionWeight, _h] at this
  omega

/-- The properties of the bases of `name`, added to those declared so far. -/
def inheritedFrom (d : Schema.Document) (visited : List String) (name : String)
    (bases : List String) (declared : List Property) : Resolving Failure (List Property) :=
  match bases with
  | [] => pure declared
  | base :: rest =>
    if d.definitions.contains base then do
      let inherited ← propertiesWithin d visited base
      inheritedFrom d visited name rest (inherited.foldl Schema.declareProperty declared)
    else throw (baseFailure d name base)
termination_by unvisited (definitionWeight d) visited d.definitions.names + bases.length + 1

end

/-! ## Models -/

/-- The field that a property of `owner` becomes. It is nullable unless it must be given and must
not be `null`. -/
def field (d : Schema.Document) (owner : String) (p : Property) : Resolving Failure FieldEntry := do
  let place := ((definitionPlace owner).key "properties").key p.name
  let type ← at_ place (typeWithin d [] p.type)
  pure {
    name := p.name
    type := if p.required && !p.nullable then type else type.orNull
    required := p.required
    description := p.description
    allowedValues := allowedValues p.type }

/-- The models that fields mention, in the order of their first mention. -/
def dependencies (fields : List FieldEntry) : List String :=
  fields.foldl (fun listed f => f.type.addModels listed) []

/-- Makes the model that a definition becomes. -/
def addModel (d : Schema.Document) (name : String) (definition : Definition) :
    Resolving Failure Unit := do
  let properties ← propertiesWithin d [] name
  let fields ← properties.mapM (field d name)
  let model : ModelEntry :=
    { name, description := definition.description, fields, dependencies := dependencies fields }
  modify fun r => { r with models := r.models ++ [model] }

/-- Resolves all aliases, then all definitions. -/
def resolveAll (d : Schema.Document) : Resolving Failure Unit := do
  d.aliases.entries.forM fun (name, _) => do
    let _ ← at_ (definitionPlace name) (aliasWithin d [] name)
  d.definitions.entries.forM fun (name, definition) => addModel d name definition

/-- What is known of a document in the end, or when its resolution fails. -/
def outcome (d : Schema.Document) : Except Failure Unit × Resolver := (resolveAll d).run {}

/-! ## Operations -/

/-- How messages name a parameter. -/
def parameterName (p : Schema.Parameter) : String := "parameter " ++ quoted p.name

/-- The types of an operation, each with what it is the type of. -/
def mentionedTypes (o : Schema.Operation) : List (String × TypeRef) :=
  o.parameters.map (fun p => (parameterName p, p.type))
    ++ o.response.toList.map (fun r => ("response", r.type))

/-- A part of an operation as a place. -/
def partPlace (o : Schema.Operation) (part : String) : Location := ⟨o.label ++ " " ++ part⟩

/-- All references of an operation must lead somewhere; other faults of its types are left for
later. -/
def checkOperation (t : TypeTable) (o : Schema.Operation) : Except Failure Unit :=
  (mentionedTypes o).forM fun (part, type) =>
    match t.typeOf type with
    | .error (.unresolved name) => .error (.unresolved name (partPlace o part))
    | _                         => .ok ()

end Resolution

/-- The table of what a resolution has found. -/
def Resolver.table (r : Resolver) : TypeTable := .ofModels r.models r.aliases

/-- The type table of a schema document. -/
def resolve (d : Schema.Document) : Except Failure TypeTable :=
  match Resolution.outcome d with
  | (.error e, _) => .error e
  | (.ok (), r)   => do
    -- only a table that is complete tells which references lead nowhere
    d.operations.forM (Resolution.checkOperation r.table)
    .ok r.table

end TypedClient
