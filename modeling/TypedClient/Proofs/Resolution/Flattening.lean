import TypedClient.Proofs.ClosedTypes

/-!
# Flattened inheritance

What a definition inherits and what it declares itself make one list, in which each name stands where
it is declared first and as it is declared last. The fields of the definition's model are those
properties, one by one, with the values that their types list. Names are sorted out again at each step
of the inheritance, which comes to the same as doing so once for the bases and the definition itself.
-/

namespace TypedClient.Schema

/-! ## Listed values -/

/-- The type lists the values: those of a primitive, also of one that an array has as its items.
Other types list none. -/
inductive TypeRef.ListsValues : TypeRef → List String → Prop where
  | primitive (name : String) (format : Option String) (values : List String) :
      ListsValues (.primitive name format values) values
  | array {items : TypeRef} {values : List String} (h : ListsValues items values) :
      ListsValues (.array items) values
  | map (values : TypeRef) : ListsValues (.map values) []
  | reference (name : String) : ListsValues (.reference name) []
  | any : ListsValues .any []

theorem TypeRef.listsValues_iff {type : TypeRef} {values : List String} :
    type.ListsValues values ↔ Resolution.allowedValues type = values := by
  constructor
  · intro h
    induction h with
    | primitive | map | reference | any => rfl
    | array _ ih => exact ih
  · rintro rfl
    induction type with
    | primitive name format values => exact .primitive name format values
    | array items ih => exact .array ih
    | map values => exact .map values
    | reference name => exact .reference name
    | any => exact .any

namespace Document

variable {d : Document} {t : TypeTable} {name : String} {definition : Definition} {p : Property}
  {f : FieldEntry} {m : ModelEntry} {ps : List Property} {flat : String → List Property}

/-! ## Properties -/

/-- `flat` has the properties of each definition: those of its bases one after the other, and then its
own, each name once. -/
def FlattensAll (d : Document) (flat : String → List Property) : Prop :=
  ∀ name definition, d.definitions.get? name = some definition →
    flat name = declaredOnce (definition.bases.flatMap flat ++ definition.properties)

theorem foldl_gathered (inherited : String → List Property) (bases : List String)
    (own : List Property) : own.foldl declareProperty (gathered inherited bases []) =
      declaredOnce (bases.flatMap inherited ++ own) := by
  rw [← foldl_declareProperty, List.foldl_append, List.foldl_flatMap]
  rfl

theorem Flattens.eq_declaredOnce (h : d.Flattens name ps)
    (hget : d.definitions.get? name = some definition) :
    ∃ inherited : String → List Property,
      (∀ base ∈ definition.bases, d.Flattens base (inherited base)) ∧
      ps = declaredOnce (definition.bases.flatMap inherited ++ definition.properties) := by
  cases h with
  | definition inherited hget' hbases =>
    cases hget.symm.trans hget'
    exact ⟨inherited, hbases, foldl_gathered _ _ _⟩

theorem Flattens.mem_definitions (h : d.Flattens name ps) : name ∈ d.definitions.names := by
  cases h with
  | definition _ hget _ => exact OrderedMap.mem_names_of_get? hget

theorem Flattens.nodup_names (h : d.Flattens name ps) : (ps.map (·.name)).Nodup := by
  cases h with
  | definition inherited _ _ =>
    rw [foldl_gathered]
    exact nodup_names_declaredOnce _

theorem Flattens.eq_of_flattensAll (h : d.Flattens name ps) (hflat : d.FlattensAll flat) :
    ps = flat name := by
  induction h with
  | @definition name definition inherited hget _ ih =>
    rw [hflat name definition hget, foldl_gathered, List.flatMap_congr ih]

/-- Where each definition is flattened, one function has the properties of all. -/
theorem exists_flattensAll (h : ∀ name ∈ d.definitions.names, ∃ ps, d.Flattens name ps) :
    ∃ flat, d.FlattensAll flat := by
  choose! flat hflat using h
  refine ⟨flat, fun name definition hget => ?_⟩
  obtain ⟨inherited, hbases, heq⟩ :=
    (hflat name (OrderedMap.mem_names_of_get? hget)).eq_declaredOnce hget
  have hinherited : ∀ base ∈ definition.bases, inherited base = flat base := by
    intro base hbase
    have hflattens := hbases base hbase
    exact hflattens.unique (hflat base hflattens.mem_definitions)
  rw [heq, List.flatMap_congr hinherited]

/-! ## Fields -/

/-- The field says what the declaration of the property says. Its type is nullable when the property
need not be given or may be `null`, and only then. -/
structure Declares (d : Document) (p : Property) (f : FieldEntry) : Prop where
  name : f.name = p.name
  required : f.required = p.required
  description : f.description = p.description
  allowedValues : p.type.ListsValues f.allowedValues
  type : ∃ v, d.Denotes p.type v ∧ v.isNullable = false ∧
    f.type = if p.required = false ∨ p.nullable = true then .nullable v else v

theorem FieldOf.declares (h : d.FieldOf p f) : d.Declares p f := by
  obtain ⟨v, hv, rfl⟩ := h
  have hnull := hv.nullFree
  refine ⟨rfl, rfl, rfl, TypeRef.listsValues_iff.2 rfl, v, hv, ?_, ?_⟩
  · cases hnull <;> rfl
  · have horNull : v.orNull = .nullable v := by
      cases hnull <;> rfl
    rw [horNull]
    cases p.required <;> cases p.nullable <;> rfl

theorem ModelOf.nodup_names (h : d.ModelOf name definition m) : (m.fields.map (·.name)).Nodup := by
  obtain ⟨ps, fields, hps, hfields, rfl⟩ := h
  have hnames : ps.map (·.name) = fields.map (·.name) :=
    map_eq_map_of_forall₂ hfields fun _ _ hf => hf.declares.name.symm
  rw [← hnames]
  exact hps.nodup_names

/-- The fields of a model are the flattened properties of its definition, in order and each name
once. -/
theorem fields_flattened (h : resolve d = .ok t) :
    (∃ flat, d.FlattensAll flat) ∧
    ∀ flat, d.FlattensAll flat → ∀ name definition, d.definitions.get? name = some definition →
      ∃ m, t.models.get? name = some m ∧ (m.fields.map (·.name)).Nodup ∧
        List.Forall₂ d.Declares (flat name) m.fields := by
  obtain ⟨htable, -⟩ := tabulates_of_resolve h
  constructor
  · apply exists_flattensAll
    intro name hname
    obtain ⟨definition, hget⟩ := OrderedMap.mem_names_iff.1 hname
    obtain ⟨m, -, ps, fields, hps, -⟩ := htable.model_of_definition hget
    exact ⟨ps, hps⟩
  · intro flat hflat name definition hget
    obtain ⟨m, hm, hmodel⟩ := htable.model_of_definition hget
    have hnodup := hmodel.nodup_names
    obtain ⟨ps, fields, hps, hfields, rfl⟩ := hmodel
    refine ⟨_, hm, hnodup, ?_⟩
    rw [← hps.eq_of_flattensAll hflat]
    exact hfields.imp fun _ _ => FieldOf.declares

/-- A declaration of a property with a text. -/
def textProperty (name : String) (required nullable : Bool) : Property :=
  { name, type := .primitive "string" none [], required, nullable, description := none }

/-- A declaration of a property that need not be given. -/
def optionalProperty (name : String) (type : TypeRef) : Property :=
  { name, type, required := false, nullable := false, description := none }

/-- One of the given texts. -/
def choice (values : List String) : TypeRef := .primitive "string" none values

/-- Dogs and pets are animals, and a puppy is a pet, a dog and once more a pet. -/
def animals : Document :=
  let definition (name : String) (bases : List String) (properties : List Property) :=
    (name, { name, description := none, bases, properties : Definition })
  { definitions := .ofList [
      definition "Puppy" ["Pet", "Dog", "Pet"] [textProperty "toy" true true,
        optionalProperty "colors" (.array (choice ["brown", "white"]))],
      definition "Dog" ["Animal"] [textProperty "bark" true false, textProperty "sex" true false],
      definition "Pet" ["Animal"] [textProperty "toy" true false, textProperty "name" true false,
        optionalProperty "colors" (.array (choice ["black"]))],
      definition "Animal" [] [textProperty "name" false false,
        optionalProperty "sex" (choice ["female", "male"])]]
    aliases := ∅
    operations := []
    baseEndpoint := none
    title := none }

/-- A puppy has the name of an animal first. Pets are its bases last, so that their declarations count,
also the one of the sex that they only inherit, whose values dogs do not list; its own ones of the toy
and the colors count more. -/
theorem puppy_flattened : ∃ t flat, resolve animals = .ok t ∧ animals.FlattensAll flat ∧
    flat "Puppy" = [textProperty "name" true false,
      optionalProperty "sex" (choice ["female", "male"]), textProperty "toy" true true,
      optionalProperty "colors" (.array (choice ["brown", "white"])), textProperty "bark" true false] ∧
    ∃ m, t.models.get? "Puppy" = some m ∧ List.Forall₂ animals.Declares (flat "Puppy") m.fields ∧
      m.fields.map (fun f => (f.type, f.allowedValues)) =
        [(.primitive .text, []), (.nullable (.primitive .text), ["female", "male"]),
          (.nullable (.primitive .text), []),
          (.nullable (.array (.primitive .text)), ["brown", "white"]), (.primitive .text, [])] := by
  have hresolve : (resolve animals).map (fun t => (t.models.get? "Puppy").map fun m =>
      m.fields.map fun f => (f.type, f.allowedValues)) = .ok (some
        [(.primitive .text, []), (.nullable (.primitive .text), ["female", "male"]),
          (.nullable (.primitive .text), []),
          (.nullable (.array (.primitive .text)), ["brown", "white"]), (.primitive .text, [])]) := by
    decide +kernel
  obtain ⟨t, ht, hlisted⟩ := map_eq_ok_iff.1 hresolve
  obtain ⟨⟨flat, hflat⟩, hfields⟩ := fields_flattened ht
  obtain ⟨m, hm, -, hpuppy⟩ := hfields flat hflat "Puppy" _ rfl
  have hanimal : flat "Animal" = [textProperty "name" false false,
      optionalProperty "sex" (choice ["female", "male"])] :=
    hflat "Animal" _ rfl
  have hpet : flat "Pet" = [textProperty "name" true false,
      optionalProperty "sex" (choice ["female", "male"]), textProperty "toy" true false,
      optionalProperty "colors" (.array (choice ["black"]))] := by
    rw [hflat "Pet" _ rfl, List.flatMap_singleton, hanimal]
    decide
  have hdog : flat "Dog" = [textProperty "name" false false, textProperty "sex" true false,
      textProperty "bark" true false] := by
    rw [hflat "Dog" _ rfl, List.flatMap_singleton, hanimal]
    decide
  refine ⟨t, flat, ht, hflat, ?_, m, hm, hpuppy, ?_⟩
  · rw [hflat "Puppy" _ rfl]
    simp only [List.flatMap_cons, List.flatMap_nil, hpet, hdog]
    decide
  · rw [hm] at hlisted
    exact Option.some.inj hlisted

end Document

end TypedClient.Schema
