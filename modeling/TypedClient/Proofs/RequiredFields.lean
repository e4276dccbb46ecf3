import TypedClient.Proofs.Conversion.Nodes
import TypedClient.Proofs.JsonText
import TypedClient.Proofs.Resolution.Flattening

/-!
# Required fields

Names are listed as required by a schema and by the inline parts of its `allOf`, and each of these
lists counts for the properties of all of them. It does not count for what is inherited: such a field
comes from the definition that declares it, and is required if the parts of that one list it.
-/

namespace TypedClient

open Schema (Definition Property lastDeclaration?)
open Source (Node)

variable {text name key : String} {d : Schema.Document} {t : TypeTable} {m : ModelEntry}
  {definition : Definition} {p : Property} {f : FieldEntry}

/-! ## Origins -/

namespace TypeTable

/-- The model has a field of this name. -/
def HasField (t : TypeTable) (name key : String) : Prop :=
  ∃ m, t.models.get? name = some m ∧ key ∈ m.fields.map (·.name)

/-- Of the bases with a field of this name, `base` is the last one. -/
def LastWith (t : TypeTable) (bases : List String) (key base : String) : Prop :=
  ∃ before after, bases = before ++ base :: after ∧ t.HasField base key ∧
    ∀ later ∈ after, ¬ t.HasField later key

theorem LastWith.unique {bases : List String} {base base' : String}
    (h : t.LastWith bases key base) (h' : t.LastWith bases key base') : base = base' := by
  obtain ⟨before, after, rfl, hfield, hafter⟩ := h
  obtain ⟨before', after', heq, hfield', hafter'⟩ := h'
  rcases List.append_eq_append_iff.1 heq with ⟨between, -, hrest⟩ | ⟨between, -, hrest⟩
  · cases between with
    | nil => exact (List.cons.inj hrest).1
    | cons _ between =>
      obtain ⟨-, rfl⟩ := List.cons.inj hrest
      exact absurd hfield' (hafter base' (List.mem_append_right _ List.mem_cons_self))
  · cases between with
    | nil => exact (List.cons.inj hrest).1.symm
    | cons _ between =>
      obtain ⟨-, rfl⟩ := List.cons.inj hrest
      exact absurd hfield (hafter' base (List.mem_append_right _ List.mem_cons_self))

end TypeTable

namespace Schema.Document

/-- `owner` is the definition that a model's field of this name comes from: its own one if that declares
the name, and otherwise the one that its last base with such a field has it from. -/
inductive Origin (d : Document) (t : TypeTable) (key : String) : String → String → Prop where
  | own {name : String} {definition : Definition} (hget : d.definitions.get? name = some definition)
      (hown : key ∈ definition.properties.map (·.name)) : Origin d t key name name
  | inherited {name base owner : String} {definition : Definition}
      (hget : d.definitions.get? name = some definition)
      (hown : key ∉ definition.properties.map (·.name))
      (hlast : t.LastWith definition.bases key base) (hbase : Origin d t key base owner) :
      Origin d t key name owner

/-- A property that is inherited is a field of the last base that has one of its name. -/
theorem Tabulates.exists_base (h : d.Tabulates t) {bases : List String}
    {inherited : String → List Property}
    (hbases : ∀ base ∈ bases, d.Flattens base (inherited base))
    (hp : lastDeclaration? (bases.flatMap inherited) p.name = some p) (hf : d.FieldOf p f) :
    ∃ base ∈ bases, t.LastWith bases f.name base ∧
      ∃ m, t.models.get? base = some m ∧ f ∈ m.fields := by
  obtain ⟨before, base, after, hsplit, hlast, hafter⟩ := lastDeclaration?_flatMap hp
  have hbase : base ∈ bases := hsplit ▸ List.mem_append_right _ List.mem_cons_self
  have hps := hbases base hbase
  obtain ⟨definition, hget⟩ := OrderedMap.mem_names_iff.1 hps.mem_definitions
  obtain ⟨m, hm, qs, fields, hqs, hfields, rfl⟩ := h.model_of_definition hget
  cases hqs.unique hps
  obtain ⟨f', hmem, hf'⟩ := exists_of_mem_left hfields (mem_of_lastDeclaration? hlast)
  cases hf.unique hf'
  refine ⟨base, hbase, ⟨before, after, hsplit, ⟨_, hm, List.mem_map_of_mem hmem⟩, ?_⟩, _, hm, hmem⟩
  rintro later hlater ⟨m', hm', hkey⟩
  have hlaterBase : later ∈ bases :=
    hsplit ▸ List.mem_append_right _ (List.mem_cons_of_mem _ hlater)
  obtain ⟨_, -, hmodel⟩ := h.definition_of_model hm'
  rw [hmodel.mem_names (hbases later hlaterBase), hf.declares.name] at hkey
  exact hafter later hlater hkey

/-- A field of a model is declared by the definition itself, or it is a field of the last base that
has one of its name. -/
theorem Tabulates.field_cases (h : d.Tabulates t)
    (hget : d.definitions.get? name = some definition) (hm : t.models.get? name = some m)
    (hf : f ∈ m.fields) :
    (∃ p, lastDeclaration? definition.properties f.name = some p ∧ d.Declares p f) ∨
      (f.name ∉ definition.properties.map (·.name) ∧ ∃ base ∈ definition.bases,
        t.LastWith definition.bases f.name base ∧
          ∃ m', t.models.get? base = some m' ∧ f ∈ m'.fields) := by
  obtain ⟨_, hget', ps, fields, hps, hfields, rfl⟩ := h.definition_of_model hm
  cases hget.symm.trans hget'
  obtain ⟨inherited, hbases, rfl⟩ := hps.eq_declaredOnce hget
  obtain ⟨p, hp, hfield⟩ := exists_of_mem_right hfields hf
  have hlast := lastDeclaration?_of_mem hp
  rw [hfield.declares.name]
  rw [lastDeclaration?_append] at hlast
  cases hown : lastDeclaration? definition.properties p.name with
  | some q =>
    rw [hown, Option.some_or] at hlast
    cases hlast
    exact .inl ⟨p, rfl, hfield.declares⟩
  | none =>
    rw [hown, Option.none_or] at hlast
    refine .inr ⟨not_mem_of_lastDeclaration? hown, ?_⟩
    rw [← hfield.declares.name]
    exact h.exists_base hbases hlast hfield

/-- So each field has an origin. -/
theorem Tabulates.exists_origin (h : d.Tabulates t) {ps : List Property} (hps : d.Flattens name ps) :
    ∀ m, t.models.get? name = some m → ∀ f ∈ m.fields, ∃ owner, d.Origin t f.name name owner := by
  -- along the inheritance, which ends in definitions without bases
  induction hps with
  | definition inherited hget _ ih =>
    intro m hm f hf
    rcases h.field_cases hget hm hf with ⟨p, hp, -⟩ | ⟨hown, base, hbase, hlast, m', hm', hf'⟩
    · have hmem := isSome_lastDeclaration?.1 (Option.isSome_iff_exists.2 ⟨p, hp⟩)
      exact ⟨_, .own hget hmem⟩
    · obtain ⟨owner, horigin⟩ := ih base hbase m' hm' f hf'
      exact ⟨owner, .inherited hget hown hlast horigin⟩

/-- The origin declares the field, however far it is inherited. -/
theorem Tabulates.origin_declares (h : d.Tabulates t) {owner : String}
    (horigin : d.Origin t f.name name owner) :
    ∀ m, t.models.get? name = some m → f ∈ m.fields → ∃ definition p,
      d.definitions.get? owner = some definition ∧
        lastDeclaration? definition.properties f.name = some p ∧ d.Declares p f := by
  induction horigin with
  | own hget hown =>
    intro m hm hf
    rcases h.field_cases hget hm hf with ⟨p, hp⟩ | ⟨hnot, -⟩
    · exact ⟨_, p, hget, hp⟩
    · exact absurd hown hnot
  | inherited hget hown hlast _ ih =>
    intro m hm hf
    rcases h.field_cases hget hm hf with ⟨p, hp, -⟩ | ⟨-, base, -, hlast', m', hm', hf'⟩
    · exact absurd (isSome_lastDeclaration?.1 (Option.isSome_iff_exists.2 ⟨p, hp⟩)) hown
    · cases hlast.unique hlast'
      exact ih m' hm' hf'

end Schema.Document

/-! ## Fields of declared schemas -/

namespace Source.Node

/-- The name is listed as required by the schema or by an inline part that the conversion goes
through. -/
def Lists (s : Node) (key : String) : Prop :=
  ∃ x, s.Takes x ∧ x.reference = none ∧ key ∈ x.required

/-- The nullable marker of the property where these parts declare it last. -/
def marker? (s : Node) (key : String) : Option Bool :=
  ((s.inlineParts.flatMap (·.marked)).findRev? (·.1 = key)).map Prod.snd

/-- The field says what the parts say: it is required if they list its name, and may be `null` if they
do not, or if its declaration is marked. -/
structure DeclaresField (s : Node) (f : FieldEntry) : Prop where
  required : f.required = true ↔ s.Lists f.name
  nullable : ∃ marker, s.marker? f.name = some marker ∧
    (f.type.isNullable = true ↔ f.required = false ∨ marker = true)

variable {s : Node}

theorem lists_iff (hs : s.isObject = true) (key : String) :
    s.Lists key ↔ key ∈ s.inlineParts.flatMap (·.required) := by
  simp only [Lists, List.mem_flatMap, mem_inlineParts_iff hs, and_assoc]

theorem Marks.declaresField (h : s.Marks definition) (hs : s.isObject = true)
    (hp : lastDeclaration? definition.properties f.name = some p) (hf : d.Declares p f) :
    s.DeclaresField f := by
  have hlast := h.map_lastDeclaration? f.name
  rw [hp, Option.map_some] at hlast
  obtain ⟨e, he, heq⟩ := Option.map_eq_some_iff.1 hlast.symm
  obtain ⟨hrequired, hnullable⟩ := Prod.mk.inj heq
  refine ⟨?_, e.2, ?_, ?_⟩
  · rw [lists_iff hs, hf.required, ← hrequired, List.contains_iff_mem]
  · rw [marker?, he, Option.map_some]
  · obtain ⟨v, -, hv, htype⟩ := hf.type
    rw [htype, hf.required, hnullable]
    split
    · rename_i hnull
      exact iff_of_true rfl hnull
    · rename_i hnull
      exact iff_of_false (by simp [hv]) hnull

theorem Marks.mem_names_iff (h : s.Marks definition) (key : String) :
    key ∈ definition.properties.map (·.name) ↔ (s.marker? key).isSome := by
  have hlast := congrArg Option.isSome (h.map_lastDeclaration? key)
  rw [Option.isSome_map, Option.isSome_map] at hlast
  rw [← Schema.isSome_lastDeclaration?, hlast, marker?, Option.isSome_map]

end Source.Node

/-- A field of a model has an origin, and the parts of that schema decide: the field is required if one
of them lists its name, wherever it does, and only then. What is listed by the schema of a model that
inherits the field does not matter. -/
theorem fields_required (hload : load text = .ok d) (ht : resolve d = .ok t) :
    ∃ src, Source.read text = .ok src ∧
      (∀ name s definition, (name, s) ∈ src.schemas → d.definitions.get? name = some definition →
        s.Makes definition ∧
          ∀ key, key ∈ definition.properties.map (·.name) ↔ (s.marker? key).isSome) ∧
      ∀ name m, t.models.get? name = some m → ∀ f ∈ m.fields,
        (∃ owner, d.Origin t f.name name owner) ∧
          ∀ owner s, d.Origin t f.name name owner → (owner, s) ∈ src.schemas →
            s.DeclaresField f := by
  obtain ⟨src, hsrc, hdocument⟩ := bind_eq_ok_iff.1 hload
  obtain ⟨htable, -⟩ := tabulates_of_resolve ht
  have hschema (name : String) (s : Node) (definition : Definition) (hmem : (name, s) ∈ src.schemas)
      (hget : d.definitions.get? name = some definition) :
      s.isObject = true ∧ s.Makes definition ∧ s.Marks definition := by
    obtain ⟨hobject, hother⟩ := Source.definitions_spec hdocument hmem
    have hs : s.isObject = true :=
      not_not.1 fun hne => hother hne (OrderedMap.mem_names_of_get? hget)
    obtain ⟨_, hget', hmade⟩ := hobject hs
    cases hget.symm.trans hget'
    exact ⟨hs, hmade⟩
  refine ⟨src, hsrc, fun name s definition hmem hget => ?_, fun name m hm f hf => ?_⟩
  · obtain ⟨-, hmakes, hmarks⟩ := hschema name s definition hmem hget
    exact ⟨hmakes, hmarks.mem_names_iff⟩
  · obtain ⟨_, -, ps, -, hps, -⟩ := htable.definition_of_model hm
    refine ⟨htable.exists_origin hps m hm f hf, fun owner s horigin hmem => ?_⟩
    obtain ⟨definition, p, hget, hp, hdeclares⟩ := htable.origin_declares horigin m hm hf
    obtain ⟨hs, -, hmarks⟩ := hschema owner s definition hmem hget
    exact hmarks.declaresField hs hp hdeclares

open Json (record quote)

/-- Dogs are pets, and must have a name as well as a bark. -/
def dogText : String :=
  record [
    ("swagger", quote "2.0"),
    ("paths", record []),
    ("definitions", record [
      ("Pet", record [("properties", record [("name", record [])])]),
      ("Dog", record [("allOf", "[" ++ record [("$ref", quote "#/definitions/Pet")] ++ "," ++ record [
        ("required", "[" ++ quote "name" ++ "," ++ quote "bark" ++ "]"),
        ("properties", record [("bark", record [("x-nullable", "true")])])] ++ "]")])])]

/-- A value that may be `null`. -/
def freeField (name : String) (required : Bool) : FieldEntry :=
  { name, type := .nullable (.primitive .json), required, description := none, allowedValues := [] }

/-- The schema of the dogs as it is read, and what becomes of it: they need not have a name. -/
theorem exists_dogs : ∃ src s d t m, Source.read dogText = .ok src ∧ ("Dog", s) ∈ src.schemas ∧
    load dogText = .ok d ∧ resolve d = .ok t ∧ t.models.get? "Dog" = some m ∧
    (s.marker? "name" = none ∧ s.marker? "bark" = some true ∧
      ∃ part ∈ s.allOf, part.reference = none ∧ "name" ∈ part.required) ∧
    m.fields = [freeField "name" false, freeField "bark" true] := by
  let schemasOf (src : Source) := src.schemas.map fun e =>
    (e.1, (e.2.marker? "name", e.2.marker? "bark"),
      e.2.allOf.flatMap fun part => if part.reference.isNone then part.required else [])
  have hrun : ((Source.read dogText).bind fun src => src.document.bind fun d =>
      (resolve d).map fun t =>
        (decide (schemasOf src =
          [("Pet", (some false, none), []), ("Dog", (none, some true), ["name", "bark"])]),
        decide ((t.models.get? "Dog").map (·.fields) =
          some [freeField "name" false, freeField "bark" true]))) = .ok (true, true) := by
    rw [read_eq_documentData ?text]
    case text =>
      simp only [dogText, Json.toList_record, Json.toList_quote, String.toList_append, List.map_cons,
        List.map_nil]
      rfl
    decide +kernel
  obtain ⟨src, hsrc, hrun⟩ := bind_eq_ok_iff.1 hrun
  obtain ⟨d, hd, hrun⟩ := bind_eq_ok_iff.1 hrun
  obtain ⟨t, ht, hrun⟩ := map_eq_ok_iff.1 hrun
  obtain ⟨hschemas, hfields⟩ := Prod.mk.inj hrun
  have hschemas := of_decide_eq_true hschemas
  obtain ⟨m, hm, hfields⟩ := Option.map_eq_some_iff.1 (of_decide_eq_true hfields)
  have hdog := hschemas ▸ List.mem_cons_of_mem _ List.mem_cons_self
  obtain ⟨⟨_, s⟩, hs, heq⟩ := List.mem_map.1 hdog
  simp only [Prod.mk.injEq] at heq
  obtain ⟨rfl, ⟨hname, hbark⟩, hparts⟩ := heq
  obtain ⟨part, hpart, hlisted⟩ := List.mem_flatMap.1 (hparts ▸ List.mem_cons_self (a := "name"))
  split at hlisted
  · rename_i hinline
    exact ⟨src, s, d, t, m, hsrc, hs, bind_eq_ok_iff.2 ⟨src, hsrc, hd⟩, ht, hm, ⟨hname, hbark, part,
      hpart, Option.isNone_iff_eq_none.1 hinline, hlisted⟩, hfields⟩
  · exact absurd hlisted List.not_mem_nil

/-- The bark is the dogs' own, and required as they list it. Their name is not: they have it from
another definition. -/
theorem dogText_fields : ∃ d t src s m, load dogText = .ok d ∧ resolve d = .ok t ∧
    Source.read dogText = .ok src ∧ ("Dog", s) ∈ src.schemas ∧ t.models.get? "Dog" = some m ∧
    m.fields = [freeField "name" false, freeField "bark" true] ∧
    d.Origin t "bark" "Dog" "Dog" ∧ s.DeclaresField (freeField "bark" true) ∧
    ∃ owner, owner ≠ "Dog" ∧ d.Origin t "name" "Dog" owner := by
  obtain ⟨src, s, d, t, m, hsrc, hs, hd, ht, hm, ⟨hname, hbark, -⟩, hfields⟩ := exists_dogs
  obtain ⟨src', hsrc', hschemas, horigins⟩ := fields_required hd ht
  cases hsrc.symm.trans hsrc'
  have hown (key : String) (definition : Definition)
      (hget : d.definitions.get? "Dog" = some definition) :
      key ∈ definition.properties.map (·.name) ↔ (s.marker? key).isSome :=
    (hschemas "Dog" s definition hs hget).2 key
  have hmem : freeField "bark" true ∈ m.fields ∧ freeField "name" false ∈ m.fields := by
    simp [hfields]
  obtain ⟨⟨owner, horigin⟩, hdeclares⟩ := horigins "Dog" m hm _ hmem.1
  have howner : owner = "Dog" := by
    cases horigin with
    | own => rfl
    | inherited hget hnot => exact absurd ((hown _ _ hget).2 (hbark ▸ rfl)) hnot
  subst howner
  refine ⟨d, t, src, s, m, hd, ht, hsrc, hs, hm, hfields, horigin, hdeclares _ s horigin hs, ?_⟩
  obtain ⟨⟨owner, horigin⟩, hdeclares⟩ := horigins "Dog" m hm _ hmem.2
  refine ⟨owner, ?_, horigin⟩
  rintro rfl
  obtain ⟨marker, hmarker, -⟩ := (hdeclares _ s horigin hs).nullable
  cases hname.symm.trans hmarker

/-- Not every field is required that is listed: the dogs' name is not. -/
theorem name_not_required : ¬ ∀ (text : String) (src : Source) (d : Schema.Document) (t : TypeTable),
    Source.read text = .ok src → load text = .ok d → resolve d = .ok t →
    ∀ name s, (name, s) ∈ src.schemas → s.allOf ≠ [] →
      ∀ x, x = s ∨ (x ∈ s.allOf ∧ x.reference = none) → ∀ key ∈ x.required,
        ∀ m, t.models.get? name = some m → ∀ f ∈ m.fields, f.name = key → f.required = true := by
  intro h
  obtain ⟨src, s, d, t, m, hsrc, hs, hd, ht, hm, ⟨-, -, part, hpart, hinline, hlisted⟩, hfields⟩ :=
    exists_dogs
  have hrequired := h dogText src d t hsrc hd ht "Dog" s hs (List.ne_nil_of_mem hpart) part
    (.inr ⟨hpart, hinline⟩) "name" hlisted m hm (freeField "name" false)
    (hfields ▸ List.mem_cons_self) rfl
  exact absurd hrequired (by decide)

end TypedClient
