import TypedClient.Proofs.Lockstep
import TypedClient.Proofs.OrderedMap
import TypedClient.Model.Resolution

/-!
# What plays no role in resolution

Of all formats only that of a text tells anything about a type, and the values that a type lists are
looked for in the types of properties only, where they go as far as the items of arrays. What
describes a property is passed on and nothing else. Resolution does the same with a document and with
its plain form, which has no more than what is looked at: it runs in lockstep, and what it knows in
the one run is the plain form of what it knows in the other.
-/

namespace TypedClient

/-! ## Plain forms -/

namespace Schema

/-- The type without the formats of other primitives than texts. The values it lists stay if
`listed`. -/
def TypeRef.plain (listed : Bool) : TypeRef → TypeRef
  | .primitive name format values =>
    .primitive name (if name = "string" then format else none) (if listed then values else [])
  | .array items    => .array (items.plain listed)
  | .map values     => .map (values.plain false)
  | .reference name => .reference name
  | .any            => .any

/-- The property with the plain form of its type. Its description stays if it is to be
`described`. -/
def Property.plain (described : Bool) (p : Property) : Property :=
  { p with
    type := p.type.plain true
    description := if described then p.description else none }

def Definition.plain (described : Bool) (d : Definition) : Definition :=
  { d with properties := d.properties.map (Property.plain described) }

/-- The document `plain` has the plain form of what `d` has, up to its title and its address. -/
structure Document.HasPlain (described : Bool) (d plain : Document) : Prop where
  definitions : plain.definitions = d.definitions.map fun _ => Definition.plain described
  aliases : plain.aliases = d.aliases.map fun _ => TypeRef.plain false
  operations : plain.operations = d.operations

variable {described : Bool}

theorem map_declareProperty (properties : List Property) (p : Property) :
    (declareProperty properties p).map (Property.plain described) =
      declareProperty (properties.map (Property.plain described)) (p.plain described) := by
  induction properties with
  | nil => rfl
  | cons q qs ih =>
    rw [List.map_cons, declareProperty, declareProperty]
    split
    · exact (if_pos ‹_›).symm
    · rw [List.map_cons, ih]
      exact (if_neg ‹_›).symm

theorem map_foldl_declareProperty (more declared : List Property) :
    (more.foldl declareProperty declared).map (Property.plain described) =
      (more.map (Property.plain described)).foldl declareProperty
        (declared.map (Property.plain described)) := by
  induction more generalizing declared with
  | nil => rfl
  | cons p more ih => rw [List.foldl_cons, ih, map_declareProperty, List.map_cons, List.foldl_cons]

end Schema

open Schema (TypeRef Property Definition declareProperty map_foldl_declareProperty)

def FieldEntry.plain (described : Bool) (f : FieldEntry) : FieldEntry :=
  { f with description := if described then f.description else none }

def ModelEntry.plain (described : Bool) (m : ModelEntry) : ModelEntry :=
  { m with fields := m.fields.map (FieldEntry.plain described) }

/-- The table without the descriptions of fields, unless they are to be `described`. -/
def TypeTable.plain (described : Bool) (t : TypeTable) : TypeTable where
  models := t.models.map fun _ => ModelEntry.plain described
  aliases := t.aliases
  named := by
    intro e he
    obtain ⟨entry, hentry, rfl⟩ := List.mem_map.1 he
    exact t.named entry hentry

def Resolver.plain (described : Bool) (r : Resolver) : Resolver :=
  { r with
    properties := r.properties.map fun _ => List.map (Property.plain described)
    models := r.models.map (ModelEntry.plain described) }

variable {described : Bool}

theorem TypeTable.plain_true (t : TypeTable) : t.plain true = t := by
  have hmodel (m : ModelEntry) : m.plain true = m := by
    have hfields : m.fields.map (FieldEntry.plain true) = m.fields := List.map_id _
    rw [ModelEntry.plain, hfields]
  have hmodels : (t.models.map fun _ => ModelEntry.plain true) = t.models := by
    apply OrderedMap.ext_entries
    rw [OrderedMap.entries_map]
    simp only [hmodel]
    exact List.map_id _
  cases t
  simp only [plain, TypeTable.mk.injEq]
  exact ⟨hmodels, trivial⟩

theorem TypeTable.typeOf_plain (t : TypeTable) (type : TypeRef) :
    (t.plain described).typeOf type = t.typeOf type := by
  induction type with
  | array items ih => rw [typeOf, typeOf, ih]
  | map values ih => rw [typeOf, typeOf, ih]
  | reference name =>
    have hcontains : (t.plain described).models.contains name = t.models.contains name := by
      rw [OrderedMap.contains, OrderedMap.contains, plain, OrderedMap.names_map]
    rw [typeOf, typeOf, referenceType, referenceType, hcontains]
    rfl
  | _ => rfl

theorem Resolver.table_plain (r : Resolver) :
    (r.plain described).table = r.table.plain described := by
  have hmodels : OrderedMap.ofList ((r.models.map (ModelEntry.plain described)).map
      fun m => (m.name, m)) =
      (OrderedMap.ofList (r.models.map fun m => (m.name, m))).map
        fun _ => ModelEntry.plain described := by
    rw [OrderedMap.ofList, OrderedMap.ofList, OrderedMap.map_insertAll, List.map_map, List.map_map]
    rfl
  simp only [table, TypeTable.ofModels, TypeTable.plain, TypeTable.mk.injEq]
  exact ⟨hmodels, rfl⟩

/-! ## Resolution -/

namespace Resolution

theorem ofSchema?_plain (name : String) (format : Option String) :
    Primitive.ofSchema? name (if name = "string" then format else none) =
      Primitive.ofSchema? name format := by
  split
  · rfl
  · unfold Primitive.ofSchema?
    split <;> simp_all

theorem allowedValues_plain (t : TypeRef) : allowedValues (t.plain true) = allowedValues t := by
  induction t with
  | array items ih => exact ih
  | _ => rfl

/-! ## Steps without the evidence that they end -/

theorem aliasWithin_eq (d : Schema.Document) (visited : List String) (name : String) :
    aliasWithin d visited name = (do
      match (← get).aliases.get? name with
      | some type => pure type
      | none =>
        match d.aliases.get? name with
        | none => throw (.unresolved name)
        | some t =>
          if name ∈ visited then throw (.aliasCycle name)
          else
            let type ← typeWithin d (name :: visited) t
            modify fun r => { r with aliases := r.aliases.insert name type }
            pure type) := by
  rw [aliasWithin]
  congr 1
  funext r
  cases r.aliases.get? name with
  | some type => rfl
  | none =>
    dsimp only
    split <;> simp_all

theorem propertiesWithin_eq (d : Schema.Document) (visited : List String) (name : String) :
    propertiesWithin d visited name = (do
      match (← get).properties.get? name with
      | some properties => pure properties
      | none =>
        match d.definitions.get? name with
        | none => throw (.unresolved name (definitionPlace name))
        | some definition =>
          if name ∈ visited then throw (.malformed (definitionPlace name) (.inheritanceCycle name))
          else
            let inherited ← inheritedFrom d (name :: visited) name definition.bases []
            let properties := definition.properties.foldl declareProperty inherited
            modify fun r => { r with properties := r.properties.insert name properties }
            pure properties) := by
  rw [propertiesWithin]
  congr 1
  funext r
  cases r.properties.get? name with
  | some properties => rfl
  | none =>
    dsimp only
    split <;> simp_all

/-! ## Types -/

theorem forall₂_eq_apply_iff {α β : Type} {f : α → β} {as : List α} {bs : List β} :
    List.Forall₂ (fun a b => b = f a) as bs ↔ bs = as.map f := by
  constructor
  · intro h
    induction h with
    | nil => rfl
    | cons hab _ ih => rw [List.map_cons, hab, ih]
  · rintro rfl
    rw [List.forall₂_map_right_iff, List.forall₂_same]
    exact fun _ _ => rfl

/-- One run knows the plain form of what the other run knows, and both fail alike. -/
abbrev Alike (described : Bool) {ε α β : Type} (R : α → β → Prop) (x : Resolving ε α)
    (y : Resolving ε β) : Prop :=
  Lockstep (fun r r' => r' = r.plain described) Eq R x y

variable {d d' : Schema.Document} (h : d.HasPlain described d')

include h

theorem contains_plain (name : String) :
    d'.definitions.contains name = d.definitions.contains name := by
  rw [h.definitions, OrderedMap.contains, OrderedMap.contains, OrderedMap.names_map]

theorem types_plain :
    (∀ visited t, ∀ listed,
        Alike described Eq (typeWithin d visited t) (typeWithin d' visited (t.plain listed))) ∧
      ∀ visited name,
        Alike described Eq (aliasWithin d visited name) (aliasWithin d' visited name) := by
  -- along the recursion of the resolution
  refine typeWithin.mutual_induct d
    (fun visited t => ∀ listed,
      Alike described Eq (typeWithin d visited t) (typeWithin d' visited (t.plain listed)))
    (fun visited name =>
      Alike described Eq (aliasWithin d visited name) (aliasWithin d' visited name))
    ?primitive ?unknown ?array ?map ?any ?model ?reference ?known
  case primitive =>
    intro visited name format values kind hkind listed
    rw [typeWithin, TypeRef.plain, typeWithin, ofSchema?_plain, hkind]
    exact .pure rfl
  case unknown =>
    intro visited name format values hkind listed
    rw [typeWithin, TypeRef.plain, typeWithin, ofSchema?_plain, hkind]
    exact .throw rfl
  case array =>
    intro visited items ih listed
    rw [typeWithin, TypeRef.plain, typeWithin]
    exact (ih listed).map fun _ _ hv => congrArg _ hv
  case map =>
    intro visited values ih _
    rw [typeWithin, TypeRef.plain, typeWithin]
    exact (ih false).map fun _ _ hv => congrArg _ hv
  case any =>
    intro visited _
    rw [typeWithin, TypeRef.plain, typeWithin]
    exact .pure rfl
  case model =>
    intro visited name hname _
    rw [typeWithin, TypeRef.plain, typeWithin, contains_plain h, if_pos hname, if_pos hname]
    exact .pure rfl
  case reference =>
    intro visited name hname ih _
    rw [typeWithin, TypeRef.plain, typeWithin, contains_plain h, if_neg hname, if_neg hname]
    exact ih
  case known =>
    intro visited name ih
    rw [aliasWithin_eq, aliasWithin_eq]
    have hget : d'.aliases.get? name = (d.aliases.get? name).map (TypeRef.plain false) := by
      rw [h.aliases, OrderedMap.get?_map]
    refine .get ?_
    rintro r _ rfl
    have haliases : (r.plain described).aliases = r.aliases := rfl
    rw [haliases]
    cases r.aliases.get? name with
    | some v => exact .pure rfl
    | none =>
      dsimp only
      rw [hget]
      cases halias : d.aliases.get? name with
      | none => exact .throw rfl
      | some t =>
        dsimp only [Option.map_some]
        split
        · exact .throw rfl
        · refine (ih t halias ‹_› false).bind ?_
          rintro v _ rfl
          refine (Lockstep.modify ?_).bind fun _ _ _ => .pure rfl
          rintro r _ rfl
          rfl

/-! ## Inheritance -/

/-- Properties and their plain forms. -/
abbrev PlainProperties (described : Bool) (ps qs : List Property) : Prop :=
  qs = ps.map (Property.plain described)

theorem properties_plain :
    (∀ visited name, Alike described (PlainProperties described)
        (propertiesWithin d visited name) (propertiesWithin d' visited name)) ∧
      ∀ visited name bases declared, Alike described (PlainProperties described)
        (inheritedFrom d visited name bases declared)
        (inheritedFrom d' visited name bases (declared.map (Property.plain described))) := by
  refine propertiesWithin.mutual_induct d
    (fun visited name => Alike described (PlainProperties described)
      (propertiesWithin d visited name) (propertiesWithin d' visited name))
    (fun visited name bases declared => Alike described (PlainProperties described)
      (inheritedFrom d visited name bases declared)
      (inheritedFrom d' visited name bases (declared.map (Property.plain described))))
    ?definition ?done ?base ?missing
  case definition =>
    intro visited name ih
    rw [propertiesWithin_eq, propertiesWithin_eq]
    have hget : d'.definitions.get? name =
        (d.definitions.get? name).map (Definition.plain described) := by
      rw [h.definitions, OrderedMap.get?_map]
    refine .get ?_
    rintro r _ rfl
    have hknown : (r.plain described).properties.get? name =
        (r.properties.get? name).map (List.map (Property.plain described)) :=
      OrderedMap.get?_map _ _ _
    rw [hknown]
    cases r.properties.get? name with
    | some ps => exact .pure rfl
    | none =>
      dsimp only [Option.map_none]
      rw [hget]
      cases hfound : d.definitions.get? name with
      | none => exact .throw rfl
      | some definition =>
        dsimp only [Option.map_some]
        split
        · exact .throw rfl
        · refine (ih definition hfound ‹_›).bind ?_
          rintro inherited _ rfl
          have hdeclared : (definition.plain described).properties.foldl declareProperty
              (inherited.map (Property.plain described)) =
              (definition.properties.foldl declareProperty inherited).map
                (Property.plain described) :=
            (map_foldl_declareProperty _ _).symm
          rw [hdeclared]
          refine (Lockstep.modify ?_).bind fun _ _ _ => .pure rfl
          rintro r _ rfl
          rw [Resolver.plain, Resolver.plain, OrderedMap.map_insert]
  case done =>
    intro visited name declared
    rw [inheritedFrom, inheritedFrom]
    exact .pure rfl
  case base =>
    intro visited name declared base bases hbase ih ihrest
    rw [inheritedFrom, inheritedFrom, contains_plain h, if_pos hbase, if_pos hbase]
    refine ih.bind ?_
    rintro inherited _ rfl
    rw [← map_foldl_declareProperty]
    exact ihrest inherited
  case missing =>
    intro visited name declared base bases hbase
    rw [inheritedFrom, inheritedFrom, contains_plain h, if_neg hbase, if_neg hbase]
    refine .throw ?_
    rw [baseFailure, baseFailure, h.aliases, OrderedMap.contains, OrderedMap.contains,
      OrderedMap.names_map]

/-! ## The table -/

theorem field_plain (owner : String) (p : Property) :
    Alike described (fun f f' => f' = f.plain described) (field d owner p)
      (field d' owner (p.plain described)) := by
  refine (((types_plain h).1 [] p.type true).adapt fun _ _ he => congrArg _ he).bind ?_
  rintro v _ rfl
  have hlisted : allowedValues (p.plain described).type = allowedValues p.type :=
    allowedValues_plain p.type
  refine .pure ?_
  rw [hlisted]
  rfl

omit h in
theorem dependencies_plain (fields : List FieldEntry) :
    dependencies (fields.map (FieldEntry.plain described)) = dependencies fields := by
  rw [dependencies, List.foldl_map]
  rfl

theorem addModel_plain (name : String) (definition : Definition) :
    Alike described (fun _ _ => True) (addModel d name definition)
      (addModel d' name (definition.plain described)) := by
  refine ((properties_plain h).1 [] name).bind ?_
  rintro ps _ rfl
  have hfields : Alike described (List.Forall₂ fun f f' => f' = f.plain described)
      (ps.mapM (field d name)) ((ps.map (Property.plain described)).mapM (field d' name)) := by
    apply Lockstep.mapM (forall₂_eq_apply_iff.2 rfl)
    rintro p _ rfl
    exact field_plain h name p
  refine hfields.bind fun fields fields' hsame => ?_
  obtain rfl := forall₂_eq_apply_iff.1 hsame
  rw [dependencies_plain]
  refine .modify ?_
  rintro r _ rfl
  rw [Resolver.plain, Resolver.plain, List.map_append]
  rfl

theorem resolveAll_plain :
    Alike described (fun _ _ => True) (resolveAll d) (resolveAll d') := by
  rw [resolveAll, resolveAll, h.definitions, h.aliases]
  refine (Lockstep.forM (forall₂_eq_apply_iff.2 (OrderedMap.entries_map _ _)) ?_).bind fun _ _ _ =>
    .forM (forall₂_eq_apply_iff.2 (OrderedMap.entries_map _ _)) ?_
  · rintro e _ rfl
    exact (((types_plain h).2 [] e.1).adapt fun _ _ he => congrArg _ he).bind fun _ _ _ =>
      .pure trivial
  · rintro e _ rfl
    exact addModel_plain h e.1 e.2

omit h in
theorem checkOperation_plain (t : TypeTable) :
    checkOperation (t.plain described) = checkOperation t := by
  funext o
  simp only [checkOperation, TypeTable.typeOf_plain]

end Resolution

/-- The plain form of a document has the plain form of its table, or fails for the same reason. -/
theorem resolve_plain {d d' : Schema.Document} (h : d.HasPlain described d') :
    resolve d' = (resolve d).map (TypeTable.plain described) := by
  have hrun := Resolution.resolveAll_plain h
  have hempty : ({} : Resolver) = Resolver.plain described {} := rfl
  rw [resolve, resolve]
  rcases hend : Resolution.outcome d with ⟨e | _, r⟩
  · obtain ⟨_, r', hend', rfl⟩ := hrun.of_error hempty hend
    have hend' : Resolution.outcome d' = (.error e, r') := hend'
    rw [hend']
    rfl
  · obtain ⟨_, r', hend', -, rfl⟩ := hrun.of_ok hempty hend
    have hend' : Resolution.outcome d' = (.ok (), r.plain described) := hend'
    rw [hend', h.operations]
    dsimp only
    rw [r.table_plain, Resolution.checkOperation_plain]
    cases d.operations.forM (Resolution.checkOperation r.table) <;> rfl

end TypedClient
