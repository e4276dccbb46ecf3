import Mathlib.Data.List.Forall2
import TypedClient.Proofs.Resolution.Inheritance
import TypedClient.Proofs.Resolution.Types

/-!
# The resolution of a document

Resolution goes through all aliases and then through all definitions. Where it succeeds, the table
has one model for each definition, with a field for each of its properties and the value type that
the property's type denotes. Where it fails, the failure says what in the document has no type.
-/

open Relation

namespace TypedClient

open Schema (TypeRef Property Definition)

/-! ## Results -/

namespace Schema.Document

variable {d : Document}

/-- The field that a property becomes. -/
def FieldOf (d : Document) (p : Property) (f : FieldEntry) : Prop :=
  ∃ v, d.Denotes p.type v ∧ f = {
    name := p.name
    type := if p.required && !p.nullable then v else v.orNull
    required := p.required
    description := p.description
    allowedValues := Resolution.allowedValues p.type }

theorem FieldOf.unique {p : Property} {f f' : FieldEntry} (hf : d.FieldOf p f)
    (hf' : d.FieldOf p f') : f = f' := by
  obtain ⟨v, hv, rfl⟩ := hf
  obtain ⟨w, hw, rfl⟩ := hf'
  rw [hv.unique hw]

/-- The model that a definition becomes. -/
def ModelOf (d : Document) (name : String) (definition : Definition) (m : ModelEntry) : Prop :=
  ∃ ps fields, d.Flattens name ps ∧ List.Forall₂ d.FieldOf ps fields ∧ m = {
    name
    description := definition.description
    fields
    dependencies := Resolution.dependencies fields }

/-- A failure with what it says about the document. -/
inductive Refuses (d : Document) : Failure → Prop where
  | aliased {name : String} {t : TypeRef} {fault : TypeFault}
      (halias : d.aliases.get? name = some t) (hfault : d.Explains t fault) :
      Refuses d (fault.failureAt (Resolution.definitionPlace name))
  | property {name : String} {ps : List Property} {p : Property} {fault : TypeFault}
      {place : Location} (hps : d.Flattens name ps) (hproperty : p ∈ ps)
      (hfault : d.Explains p.type fault) : Refuses d (fault.failureAt place)
  | base {e : Failure} (hbase : d.BaseFailure e) : Refuses d e
  | operation {o : Operation} {part : String} {t : TypeRef} {name : String}
      (hoperation : o ∈ d.operations) (htype : (part, t) ∈ Resolution.mentionedTypes o)
      (hlast : t.innermost = .reference name) (hname : ¬ d.knows name) :
      Refuses d (.unresolved name (Resolution.partPlace o part))

end Schema.Document

/-! ## Models -/

namespace Resolver

variable {d : Schema.Document} {r r' r'' : Resolver}

/-- What is known is what the document says. -/
structure Sound (d : Schema.Document) (r : Resolver) : Prop where
  aliases : r.AliasesOf d
  properties : r.PropertiesOf d

/-- Nothing that was known of aliases is lost, and models are as they were. -/
structure Keeps (r r' : Resolver) : Prop where
  aliases : ∀ name ∈ r.aliases.names, name ∈ r'.aliases.names
  models : r'.models = r.models

theorem Keeps.refl (r : Resolver) : r.Keeps r := ⟨fun _ h => h, rfl⟩

theorem Keeps.trans (h : r.Keeps r') (h' : r'.Keeps r'') : r.Keeps r'' :=
  ⟨fun name hname => h'.aliases name (h.aliases name hname), h'.models.trans h.models⟩

theorem AddsAliases.keeps (h : r.AddsAliases r') : r.Keeps r' := ⟨h.aliases, h.models⟩

theorem AddsProperties.keeps (h : r.AddsProperties r') : r.Keeps r' :=
  ⟨fun _ hname => h.aliases ▸ hname, h.models⟩

theorem Sound.of_addsAliases (h : r.Sound d) (hadds : r.AddsAliases r') (hr' : r'.AliasesOf d) :
    r'.Sound d :=
  ⟨hr', fun name ps hps => h.properties name ps (hadds.properties ▸ hps)⟩

theorem Sound.of_addsProperties (h : r.Sound d) (hadds : r.AddsProperties r')
    (hr' : r'.PropertiesOf d) : r'.Sound d :=
  ⟨fun name v hv => h.aliases name v (hadds.aliases ▸ hv), hr'⟩

end Resolver

namespace Resolution

variable {d : Schema.Document} {r : Resolver} {name : String} {definition : Definition}

theorem field_spec (hr : r.Sound d) (owner : String) (p : Property) :
    wp (field d owner p) r (fun f r' => d.FieldOf p f ∧ r'.Sound d ∧ r.Keeps r')
      (fun e _ => ∃ fault place, e = TypeFault.failureAt place fault ∧ d.Explains p.type fault) := by
  rw [field, wp_bind, at_, wp_adapt]
  refine ((specs d).1 [] p.type r hr.aliases fun _ h => absurd h List.not_mem_nil).mono ?_ ?_
  · rintro v r' ⟨hv, hr', hadds⟩
    exact ⟨⟨v, hv, rfl⟩, hr.of_addsAliases hadds hr', hadds.keeps⟩
  · exact fun e _ he => ⟨e, _, rfl, he⟩

theorem fields_spec (hr : r.Sound d) (owner : String) (ps : List Property) :
    wp (ps.mapM (field d owner)) r
      (fun fields r' => List.Forall₂ d.FieldOf ps fields ∧ r'.Sound d ∧ r.Keeps r')
      (fun e _ => ∃ p ∈ ps, ∃ fault place, e = TypeFault.failureAt place fault ∧
        d.Explains p.type fault) := by
  refine wp_mapM (I := fun ps fields r' => List.Forall₂ d.FieldOf ps fields ∧ r'.Sound d ∧
    r.Keeps r') ⟨.nil, hr, .refl r⟩ ?_
  rintro done fields p r' hp ⟨hfields, hr', hkeeps⟩
  refine (field_spec hr' owner p).mono ?_ fun e _ he => ⟨p, hp, he⟩
  rintro f r'' ⟨hf, hr'', hkeeps'⟩
  exact ⟨List.rel_append hfields (.cons hf .nil), hr'', hkeeps.trans hkeeps'⟩

theorem addModel_spec (hr : r.Sound d) (hget : d.definitions.get? name = some definition) :
    wp (addModel d name definition) r
      (fun _ r' => r'.Sound d ∧ (∀ key ∈ r.aliases.names, key ∈ r'.aliases.names) ∧
        ∃ m, r'.models = r.models ++ [m] ∧ d.ModelOf name definition m)
      (fun e _ => d.Refuses e) := by
  rw [addModel, wp_bind]
  refine (propertiesWithin_spec d [] name r hr.properties (OrderedMap.mem_names_of_get? hget)
    fun _ h => absurd h List.not_mem_nil).mono ?_ fun e _ he => .base he
  rintro ps r' ⟨hps, hr', hadds⟩
  rw [wp_bind]
  refine (fields_spec (hr.of_addsProperties hadds hr') name ps).mono ?_ ?_
  · rintro fields r'' ⟨hfields, hr'', hkeeps⟩
    have hkeeps := hadds.keeps.trans hkeeps
    refine ⟨⟨hr''.aliases, hr''.properties⟩, hkeeps.aliases, _, ?_, ps, fields, hps, hfields, rfl⟩
    simp [hkeeps.models]
  · rintro e - ⟨p, hp, fault, place, rfl, hfault⟩
    exact .property hps hp hfault

/-! ## All aliases and definitions -/

/-- What is known once the aliases of `done` are resolved. -/
structure AliasesDone (d : Schema.Document) (done : List (String × TypeRef)) (r : Resolver) : Prop
    where
  sound : r.Sound d
  models : r.models = []
  aliases : ∀ name ∈ done.map Prod.fst, name ∈ r.aliases.names

/-- What is known once the definitions of `done` are resolved as well. -/
structure ModelsDone (d : Schema.Document) (done : List (String × Definition)) (r : Resolver) : Prop
    where
  sound : r.Sound d
  aliases : ∀ name ∈ d.aliases.names, name ∈ r.aliases.names
  models : List.Forall₂ (fun e m => d.ModelOf e.1 e.2 m) done r.models

theorem alias_step {done : List (String × TypeRef)} {t : TypeRef} (hr : AliasesDone d done r)
    (halias : d.aliases.get? name = some t) :
    wp (at_ (definitionPlace name) (aliasWithin d [] name)) r
      (fun _ r' => AliasesDone d (done ++ [(name, t)]) r') (fun e _ => d.Refuses e) := by
  rw [at_, wp_adapt]
  have hname := OrderedMap.mem_names_of_get? halias
  refine ((specs d).2 [] name r hr.sound.aliases (fun _ h => absurd h List.not_mem_nil)
    fun _ => ⟨rfl, hname⟩).mono ?_ ?_
  · rintro v r' ⟨-, hr', hadds, hknown⟩
    refine ⟨hr.sound.of_addsAliases hadds hr', hadds.models.trans hr.models, fun key hkey => ?_⟩
    rw [List.map_append, List.mem_append] at hkey
    rcases hkey with hkey | hkey
    · exact hadds.aliases key (hr.aliases key hkey)
    · exact List.mem_singleton.1 hkey ▸ hknown
  · rintro e - (⟨-, -, hvisited⟩ | ⟨t, halias, he⟩)
    · exact absurd rfl (hvisited hname)
    · exact .aliased halias he

theorem resolveAll_spec (d : Schema.Document) :
    wp (resolveAll d) {} (fun _ r => ModelsDone d d.definitions.entries r)
      (fun e _ => d.Refuses e) := by
  rw [resolveAll, wp_bind]
  have hempty : AliasesDone d [] {} := ⟨⟨nofun, nofun⟩, rfl, nofun⟩
  refine (wp_forM (I := AliasesDone d) hempty fun done e r he hr => ?_).mono ?_ fun _ _ he => he
  · rw [wp_bind]
    exact alias_step hr (OrderedMap.get?_eq_some_iff.2 he)
  · rintro - r hr
    have hstart : ModelsDone d [] r := ⟨hr.sound, hr.aliases, hr.models ▸ .nil⟩
    apply wp_forM (I := ModelsDone d) hstart
    intro done e r he hr
    refine (addModel_spec hr.sound (OrderedMap.get?_eq_some_iff.2 he)).mono ?_ fun _ _ he => he
    rintro - r' ⟨hr', hkeeps, m, hmodels, hm⟩
    refine ⟨hr', fun key hkey => hkeeps key (hr.aliases key hkey), ?_⟩
    rw [hmodels]
    exact List.rel_append hr.models (.cons hm .nil)

end Resolution

/-! ## The table -/

namespace Schema.Document

variable {d : Document} {t : TypeTable} {name : String}

theorem exists_of_mem_left {α β : Type} {R : α → β → Prop} {xs : List α} {ys : List β}
    (h : List.Forall₂ R xs ys) {x : α} (hx : x ∈ xs) : ∃ y ∈ ys, R x y := by
  induction h with
  | nil => exact absurd hx List.not_mem_nil
  | cons hxy _ ih =>
    rcases List.mem_cons.1 hx with rfl | hx
    · exact ⟨_, List.mem_cons_self, hxy⟩
    · obtain ⟨y, hy, hxy⟩ := ih hx
      exact ⟨y, List.mem_cons_of_mem _ hy, hxy⟩

theorem exists_of_mem_right {α β : Type} {R : α → β → Prop} {xs : List α} {ys : List β}
    (h : List.Forall₂ R xs ys) {y : β} (hy : y ∈ ys) : ∃ x ∈ xs, R x y :=
  exists_of_mem_left h.flip hy

theorem map_eq_map_of_forall₂ {α β γ : Type} {R : α → β → Prop} {f : α → γ} {g : β → γ}
    {xs : List α} {ys : List β} (h : List.Forall₂ R xs ys) (hR : ∀ x y, R x y → f x = g y) :
    xs.map f = ys.map g := by
  rw [← List.forall₂_eq_eq_eq, List.forall₂_map_left_iff, List.forall₂_map_right_iff]
  exact h.imp hR

/-- The table has what the document declares: a model for each definition, under its name and in
its order, and the type of each alias. -/
structure Tabulates (d : Document) (t : TypeTable) : Prop where
  models : List.Forall₂ (fun e e' => e'.1 = e.1 ∧ d.ModelOf e.1 e.2 e'.2) d.definitions.entries
    t.models.entries
  aliases : ∀ name v, t.aliases.get? name = some v → d.DenotesAlias name v
  known : ∀ name ∈ d.aliases.names, name ∈ t.aliases.names

theorem ModelOf.name_eq {definition : Definition} {m : ModelEntry}
    (h : d.ModelOf name definition m) : m.name = name := by
  obtain ⟨ps, fields, -, -, rfl⟩ := h
  rfl

theorem tabulates_table {r : Resolver} (hr : Resolution.ModelsDone d d.definitions.entries r) :
    d.Tabulates r.table := by
  have hnames : d.definitions.names = r.models.map (·.name) :=
    map_eq_map_of_forall₂ hr.models fun e m hm => hm.name_eq.symm
  -- the names are those of the definitions, so that no model takes the place of another one
  have hentries : r.table.models.entries = r.models.map fun m => (m.name, m) := by
    apply OrderedMap.entries_ofList
    rw [List.map_map]
    have hdistinct : d.definitions.names.Nodup := d.definitions.distinct
    rwa [hnames] at hdistinct
  refine ⟨?_, hr.sound.aliases, hr.aliases⟩
  rw [hentries, List.forall₂_map_right_iff]
  exact hr.models.imp fun e m hm => ⟨hm.name_eq, hm⟩

theorem Tabulates.names (h : d.Tabulates t) : t.models.names = d.definitions.names :=
  (map_eq_map_of_forall₂ h.models fun _ _ he => he.1.symm).symm

theorem Tabulates.model_of_definition (h : d.Tabulates t) {definition : Definition}
    (hget : d.definitions.get? name = some definition) :
    ∃ m, t.models.get? name = some m ∧ d.ModelOf name definition m := by
  obtain ⟨⟨_, m⟩, hmem, rfl, hm⟩ := exists_of_mem_left h.models (OrderedMap.get?_eq_some_iff.1 hget)
  exact ⟨m, OrderedMap.get?_eq_some_iff.2 hmem, hm⟩

theorem Tabulates.definition_of_model (h : d.Tabulates t) {m : ModelEntry}
    (hm : t.models.get? name = some m) :
    ∃ definition, d.definitions.get? name = some definition ∧ d.ModelOf name definition m := by
  obtain ⟨⟨_, definition⟩, hmem, rfl, hm⟩ :=
    exists_of_mem_right h.models (OrderedMap.get?_eq_some_iff.1 hm)
  exact ⟨definition, OrderedMap.get?_eq_some_iff.2 hmem, hm⟩

theorem Tabulates.mem_aliases (h : d.Tabulates t) :
    name ∈ t.aliases.names ↔ name ∈ d.aliases.names := by
  refine ⟨fun hname => ?_, h.known name⟩
  obtain ⟨v, hv⟩ := OrderedMap.mem_names_iff.1 hname
  obtain ⟨type, halias, -⟩ := h.aliases name v hv
  exact OrderedMap.mem_names_of_get? halias

theorem ModelOf.mem_names {definition : Definition} {m : ModelEntry} {ps : List Property}
    (h : d.ModelOf name definition m) (hps : d.Flattens name ps) (key : String) :
    key ∈ m.fields.map (·.name) ↔ key ∈ ps.map (·.name) := by
  obtain ⟨qs, fields, hqs, hfields, rfl⟩ := h
  cases hqs.unique hps
  have hnames : ps.map (·.name) = fields.map (·.name) := by
    apply map_eq_map_of_forall₂ hfields
    intro p f hf
    obtain ⟨v, -, rfl⟩ := hf
    rfl
  rw [hnames]

/-- A model has the properties of its definition and the fields of the models of its bases. -/
theorem Tabulates.mem_fieldNames (h : d.Tabulates t) {definition : Definition} {m : ModelEntry}
    (hget : d.definitions.get? name = some definition) (hm : t.models.get? name = some m)
    {key : String} :
    key ∈ m.fields.map (·.name) ↔ key ∈ definition.properties.map (·.name) ∨
      ∃ base ∈ definition.bases, ∃ m', t.models.get? base = some m' ∧
        key ∈ m'.fields.map (·.name) := by
  obtain ⟨_, hget', hmodel⟩ := h.definition_of_model hm
  cases hget.symm.trans hget'
  have hbase {base : String} {qs : List Property} (hqs : d.Flattens base qs) :
      ∃ m', t.models.get? base = some m' ∧
        ∀ key, key ∈ m'.fields.map (·.name) ↔ key ∈ qs.map (·.name) := by
    cases hqs with
    | definition inherited hget hbases =>
      obtain ⟨m', hm', hmodel'⟩ := h.model_of_definition hget
      exact ⟨m', hm', hmodel'.mem_names (.definition inherited hget hbases)⟩
  obtain ⟨ps, fields, hps, -⟩ := id hmodel
  rw [hmodel.mem_names hps, hps.mem_names hget]
  refine or_congr_right (exists_congr fun base => and_congr_right fun hmem => ?_)
  constructor
  · rintro ⟨qs, hqs, hkey⟩
    obtain ⟨m', hm', hnames⟩ := hbase hqs
    exact ⟨m', hm', (hnames key).2 hkey⟩
  · rintro ⟨m', hm', hkey⟩
    obtain ⟨qs, hqs⟩ := hps.extends ⟨definition, hget, hmem⟩
    obtain ⟨_, hm'', hnames⟩ := hbase hqs
    cases hm'.symm.trans hm''
    exact ⟨qs, hqs, (hnames key).1 hkey⟩

end Schema.Document

end TypedClient
