import TypedClient.Proofs.Resolution.Flattening

/-!
# Aliases written out

A reference to an alias stands for the alias's type. A property that has this type itself, in place of
the reference, leaves the models as they are, with one exception: the values that a type lists are
looked for in the type as the property has it, and not in aliases. So the fields that come from the
property may gain allowed values.
-/

namespace TypedClient

open Schema (TypeRef Property Definition declareProperty)

theorem forall₂_join {α β γ : Type} {R : α → β → Prop} {S : α → γ → Prop} {T : β → γ → Prop}
    {xs : List α} {ys : List β} {zs : List γ} (hR : List.Forall₂ R xs ys)
    (hS : List.Forall₂ S xs zs) (hT : ∀ x y z, R x y → S x z → T y z) : List.Forall₂ T ys zs := by
  induction hR generalizing zs with
  | nil =>
    cases hS
    exact .nil
  | cons hxy _ ih =>
    cases hS with
    | cons hxz hS => exact .cons (hT _ _ _ hxy hxz) (ih hS)

namespace Schema.Document

variable {d : Document} {t t' : TypeTable} {name owner : String} {type u : TypeRef}
  {v : ValueType} {definition : Definition} {p q : Property} {ps qs before after : List Property}
  {e : Failure}

/-! ## What resolution needs -/

/-- The aliases have types, and so have the properties of the definitions, those included that are
inherited and declared again by no one. The operations refer to nothing unknown. -/
structure Resolvable (d : Document) : Prop where
  aliases : ∀ name type, d.aliases.get? name = some type → ∃ v, d.Denotes type v
  definitions : ∀ name ∈ d.definitions.names,
    ∃ ps, d.Flattens name ps ∧ ∀ p ∈ ps, ∃ v, d.Denotes p.type v
  operations : d.OperationsKnown

theorem Resolvable.not_refuses (h : d.Resolvable) : ¬ d.Refuses e := by
  intro he
  cases he with
  | aliased halias hfault =>
    obtain ⟨v, hv⟩ := h.aliases _ _ halias
    exact hfault.not_denotes hv
  | property hps hp hfault =>
    obtain ⟨qs, hqs, htypes⟩ := h.definitions _ hps.mem_definitions
    cases hps.unique hqs
    obtain ⟨v, hv⟩ := htypes _ hp
    exact hfault.not_denotes hv
  | operation ho htype hlast hname => exact hname (h.operations _ ho _ _ htype _ hlast)
  | base hbase =>
    cases hbase with
    | base hextends hname =>
      obtain ⟨definition, hget, -⟩ := id hextends
      obtain ⟨ps, hps, -⟩ := h.definitions _ (OrderedMap.mem_names_of_get? hget)
      obtain ⟨qs, hqs⟩ := hps.extends hextends
      exact hname hqs.mem_definitions
    | cycle hcycle =>
      obtain ⟨base, ⟨definition, hget, -⟩, -⟩ := Relation.TransGen.head'_iff.1 hcycle
      obtain ⟨ps, hps, -⟩ := h.definitions _ (OrderedMap.mem_names_of_get? hget)
      exact hps.not_cycle hcycle

theorem Tabulates.resolvable (h : d.Tabulates t) (hops : d.OperationsKnown) : d.Resolvable := by
  refine ⟨fun name type halias => ?_, fun name hname => ?_, hops⟩
  · obtain ⟨v, hv⟩ := OrderedMap.mem_names_iff.1 (h.known name (OrderedMap.mem_names_of_get? halias))
    obtain ⟨type', halias', hv⟩ := h.aliases name v hv
    cases halias.symm.trans halias'
    exact ⟨v, hv⟩
  · obtain ⟨definition, hget⟩ := OrderedMap.mem_names_iff.1 hname
    obtain ⟨m, -, ps, fields, hps, hfields, -⟩ := h.model_of_definition hget
    refine ⟨ps, hps, fun p hp => ?_⟩
    obtain ⟨f, -, v, hv, -⟩ := exists_of_mem_left hfields hp
    exact ⟨v, hv⟩

theorem exists_resolve_iff : (∃ t, resolve d = .ok t) ↔ d.Resolvable := by
  constructor
  · rintro ⟨t, ht⟩
    obtain ⟨htable, hops⟩ := tabulates_of_resolve ht
    exact htable.resolvable hops
  · intro h
    rcases resolve_cases d with ⟨e, -, he⟩ | ⟨t, ht, -⟩
    · exact absurd he h.not_refuses
    · exact ⟨t, ht⟩

/-! ## Written out aliases -/

/-- A reference to an alias in the type is replaced by the type of the alias. -/
inductive Expands (d : Document) : TypeRef → TypeRef → Prop where
  | reference {name : String} {type : TypeRef} (hname : name ∉ d.definitions.names)
      (halias : d.aliases.get? name = some type) : Expands d (.reference name) type
  | array {items items' : TypeRef} (hitems : Expands d items items') :
      Expands d (.array items) (.array items')
  | map {values values' : TypeRef} (hvalues : Expands d values values') :
      Expands d (.map values) (.map values')

theorem Expands.denotes (h : d.Expands type u) (hv : d.Denotes type v) : d.Denotes u v := by
  induction h generalizing v with
  | reference hname halias =>
    cases hv with
    | model hname' => exact absurd hname' hname
    | aliased _ halias' hv =>
      cases halias.symm.trans halias'
      exact hv
  | array _ ih =>
    cases hv with
    | array hv => exact .array (ih hv)
  | map _ ih =>
    cases hv with
    | map hv => exact .map (ih hv)

/-- Where there is a reference no values are listed. -/
theorem Expands.allowedValues_eq_nil (h : d.Expands type u) : Resolution.allowedValues type = [] := by
  induction h with
  | reference => rfl
  | array _ ih => exact ih
  | map => rfl

/-! ## Properties declared anew -/

/-- The document in which `owner` has the properties `ps`. -/
def redeclare (d : Document) (owner : String) (ps : List Property) : Document :=
  { d with definitions := d.definitions.map fun name definition =>
      if name = owner then { definition with properties := ps } else definition }

@[simp] theorem redeclare_names (d : Document) (owner : String) (ps : List Property) :
    (d.redeclare owner ps).definitions.names = d.definitions.names :=
  OrderedMap.names_map _ _

theorem redeclare_denotes_iff :
    (d.redeclare owner ps).Denotes type v ↔ d.Denotes type v :=
  ⟨fun h => h.congr (fun _ => by rw [redeclare_names]) fun _ => rfl,
    fun h => h.congr (fun _ => by rw [redeclare_names]) fun _ => rfl⟩

theorem redeclare_knows (name : String) : (d.redeclare owner ps).knows name = d.knows name := by
  rw [Bool.eq_iff_iff, knows_iff, knows_iff, redeclare_names]
  rfl

theorem redeclare_get? (d : Document) (owner : String) (ps : List Property) (name : String) :
    (d.redeclare owner ps).definitions.get? name = (d.definitions.get? name).map fun definition =>
      if name = owner then { definition with properties := ps } else definition :=
  OrderedMap.get?_map _ _ _

theorem OperationsKnown.redeclare (h : d.OperationsKnown) :
    (d.redeclare owner ps).OperationsKnown := by
  intro o ho part type htype name hlast
  rw [redeclare_knows]
  exact h o ho part type htype name hlast

/-! ## Corresponding properties -/

section Corresponding

variable {R : Property → Property → Prop} (hname : ∀ q q', R q q' → q'.name = q.name)
  {declared declared' more more' : List Property} {f g : String → List Property}
  {bases : List String}

include hname

theorem declareProperty_rel (hdeclared : List.Forall₂ R declared declared') (hpq : R p q) :
    List.Forall₂ R (declareProperty declared p) (declareProperty declared' q) := by
  induction hdeclared with
  | nil => exact .cons hpq .nil
  | @cons r r' rest rest' hr hrest ih =>
    rw [declareProperty, declareProperty, hname _ _ hr, hname _ _ hpq]
    split
    · exact .cons hpq hrest
    · exact .cons hr ih

theorem foldl_declareProperty_rel (hmore : List.Forall₂ R more more')
    (hdeclared : List.Forall₂ R declared declared') :
    List.Forall₂ R (more.foldl declareProperty declared) (more'.foldl declareProperty declared') := by
  induction hmore generalizing declared declared' with
  | nil => exact hdeclared
  | cons hpq _ ih => exact ih (declareProperty_rel hname hdeclared hpq)

theorem gathered_rel (h : ∀ base ∈ bases, List.Forall₂ R (f base) (g base))
    (hdeclared : List.Forall₂ R declared declared') :
    List.Forall₂ R (gathered f bases declared) (gathered g bases declared') := by
  induction bases generalizing declared declared' with
  | nil => exact hdeclared
  | cons base bases ih =>
    apply ih fun b hb => h b (List.mem_cons_of_mem _ hb)
    exact foldl_declareProperty_rel hname (h base List.mem_cons_self) hdeclared

end Corresponding

/-! ## Retyped properties -/

/-- The declaration is kept, or it is `p` and gets the type `u`; the latter only where `visible`
holds. -/
def Retyped (p : Property) (u : TypeRef) (visible : Prop) (q q' : Property) : Prop :=
  q' = q ∨ visible ∧ q = p ∧ q' = { p with type := u }

/-- The field is kept, or it is one that `p` declares. Then it listed no values and lists those of
`u` now. -/
def FieldRetyped (p : Property) (u : TypeRef) (visible : Prop) (f f' : FieldEntry) : Prop :=
  f' = f ∨ visible ∧ f.name = p.name ∧ f.allowedValues = [] ∧
    f' = { f with allowedValues := Resolution.allowedValues u }

structure ModelRetyped (p : Property) (u : TypeRef) (visible : Prop) (m m' : ModelEntry) : Prop where
  name : m'.name = m.name
  description : m'.description = m.description
  fields : List.Forall₂ (FieldRetyped p u visible) m.fields m'.fields
  dependencies : m'.dependencies = m.dependencies

variable {visible : Prop} {q' : Property} {f f' : FieldEntry} {m m' : ModelEntry}
  {definition' : Definition}

theorem Retyped.name_eq (h : Retyped p u visible q q') : q'.name = q.name := by
  rcases h with rfl | ⟨-, rfl, rfl⟩ <;> rfl

theorem forall₂_retyped_refl (ps : List Property) : List.Forall₂ (Retyped p u visible) ps ps :=
  List.forall₂_same.2 fun _ _ => .inl rfl

/-- The definitions have the same properties but for `p`, which is found in its new form unless its
owner declares the name again. -/
theorem Flattens.retyped (h : d.Flattens name qs) (hget : d.definitions.get? owner = some definition)
    (hproperties : definition.properties = before ++ p :: after) :
    ∃ qs', (d.redeclare owner (before ++ { p with type := u } :: after)).Flattens name qs' ∧
      List.Forall₂ (Retyped p u (p.name ∉ after.map (·.name))) qs qs' := by
  have hname := fun q q' (hq : Retyped p u (p.name ∉ after.map (·.name)) q q') => hq.name_eq
  induction h with
  | @definition name definition' inherited hget' _ ih =>
    choose! inherited' hbases hinherited using ih
    have hgathered := gathered_rel hname hinherited (forall₂_retyped_refl [])
    have hredeclared := redeclare_get? d owner (before ++ { p with type := u } :: after) name
    rw [hget', Option.map_some] at hredeclared
    by_cases howner : name = owner
    · cases howner
      cases hget.symm.trans hget'
      rw [if_pos rfl] at hredeclared
      refine ⟨_, .definition inherited' hredeclared hbases, ?_⟩
      dsimp only
      rw [hproperties]
      by_cases hshadowed : p.name ∈ after.map (·.name)
      · have hsame : (before ++ { p with type := u } :: after).foldl declareProperty
            (gathered inherited' definition.bases []) =
              (before ++ p :: after).foldl declareProperty
                (gathered inherited' definition.bases []) := by
          rw [foldl_gathered, foldl_gathered, ← List.append_assoc, ← List.append_assoc]
          exact declaredOnce_shadowed rfl hshadowed
        rw [hsame]
        exact foldl_declareProperty_rel hname (forall₂_retyped_refl _) hgathered
      · apply foldl_declareProperty_rel hname _ hgathered
        apply List.rel_append (forall₂_retyped_refl before)
        exact .cons (.inr ⟨hshadowed, rfl, rfl⟩) (forall₂_retyped_refl after)
    · rw [if_neg howner] at hredeclared
      refine ⟨_, .definition inherited' hredeclared hbases, ?_⟩
      exact foldl_declareProperty_rel hname (forall₂_retyped_refl _) hgathered

theorem Resolvable.redeclare (h : d.Resolvable) (hget : d.definitions.get? owner = some definition)
    (hproperties : definition.properties = before ++ p :: after) (hu : d.Expands p.type u) :
    (d.redeclare owner (before ++ { p with type := u } :: after)).Resolvable := by
  refine ⟨fun name type halias => ?_, fun name hname => ?_, h.operations.redeclare⟩
  · obtain ⟨v, hv⟩ := h.aliases name type halias
    exact ⟨v, redeclare_denotes_iff.2 hv⟩
  · rw [redeclare_names] at hname
    obtain ⟨ps, hps, htypes⟩ := h.definitions name hname
    obtain ⟨ps', hps', hretyped⟩ := hps.retyped hget hproperties
    refine ⟨ps', hps', fun q' hq' => ?_⟩
    obtain ⟨q, hq, hshown⟩ := exists_of_mem_right hretyped hq'
    obtain ⟨v, hv⟩ := htypes q hq
    refine ⟨v, redeclare_denotes_iff.2 ?_⟩
    rcases hshown with rfl | ⟨-, rfl, rfl⟩
    · exact hv
    · exact hu.denotes hv

theorem Retyped.field (h : Retyped p u visible q q') (hu : d.Expands p.type u) (hf : d.FieldOf q f)
    (hf' : (d.redeclare owner ps).FieldOf q' f') : FieldRetyped p u visible f f' := by
  obtain ⟨v, hv, rfl⟩ := hf
  obtain ⟨v', hv', rfl⟩ := hf'
  rw [redeclare_denotes_iff] at hv'
  rcases h with rfl | ⟨hvisible, rfl, rfl⟩
  · cases hv.unique hv'
    exact .inl rfl
  · cases (hu.denotes hv).unique hv'
    exact .inr ⟨hvisible, rfl, hu.allowedValues_eq_nil, rfl⟩

theorem FieldRetyped.type_eq (h : FieldRetyped p u visible f f') : f'.type = f.type := by
  rcases h with rfl | ⟨-, -, -, rfl⟩ <;> rfl

theorem dependencies_congr {fields fields' : List FieldEntry}
    (h : fields.map (·.type) = fields'.map (·.type)) :
    Resolution.dependencies fields = Resolution.dependencies fields' := by
  unfold Resolution.dependencies
  rw [← List.foldl_map, h, List.foldl_map]

theorem ModelOf.retyped (hm : d.ModelOf name definition m)
    (hm' : (d.redeclare owner qs).ModelOf name definition' m') (hu : d.Expands p.type u)
    (hdescription : definition'.description = definition.description)
    (hflat : ∀ ps, d.Flattens name ps → ∃ ps', (d.redeclare owner qs).Flattens name ps' ∧
      List.Forall₂ (Retyped p u visible) ps ps') : ModelRetyped p u visible m m' := by
  obtain ⟨ps, fields, hps, hfields, rfl⟩ := hm
  obtain ⟨ps', fields', hps', hfields', rfl⟩ := hm'
  obtain ⟨_, hps'', hretyped⟩ := hflat ps hps
  cases hps''.unique hps'
  have hshown : List.Forall₂ (fun q f' => ∃ q', Retyped p u visible q q' ∧
      (d.redeclare owner qs).FieldOf q' f') ps fields' :=
    forall₂_join hretyped.flip hfields' fun q' _ _ hq hf' => ⟨q', hq, hf'⟩
  have hjoined : List.Forall₂ (FieldRetyped p u visible) fields fields' := by
    apply forall₂_join hfields hshown
    rintro q f f' hf ⟨q', hq, hf'⟩
    exact hq.field hu hf hf'
  refine ⟨rfl, hdescription, hjoined, dependencies_congr ?_⟩
  exact (map_eq_map_of_forall₂ hjoined fun _ _ hf => hf.type_eq.symm).symm

theorem ModelRetyped.eq (h : ModelRetyped p u visible m m')
    (hsame : visible → Resolution.allowedValues u = []) : m' = m := by
  have hfields : List.Forall₂ Eq m.fields m'.fields := by
    apply h.fields.imp
    rintro f f' (rfl | ⟨hvisible, -, hlisted, rfl⟩)
    · rfl
    · rw [hsame hvisible, ← hlisted]
  rw [List.forall₂_eq_eq_eq] at hfields
  obtain ⟨hname, hdescription, -, hdependencies⟩ := h
  cases m
  cases m'
  simp_all

/-- A declaration whose name its owner does not declare again makes a field of the owner's model. -/
theorem ModelOf.exists_field (h : d.ModelOf owner definition m)
    (hget : d.definitions.get? owner = some definition)
    (hproperties : definition.properties = before ++ p :: after)
    (hvisible : p.name ∉ after.map (·.name)) : ∃ f ∈ m.fields, d.FieldOf p f := by
  obtain ⟨ps, fields, hps, hfields, rfl⟩ := h
  apply exists_of_mem_left hfields
  cases hps with
  | definition inherited hget' _ =>
    cases hget.symm.trans hget'
    rw [hproperties, List.foldl_append, List.foldl_cons]
    exact mem_foldl_declareProperty_of_not_mem mem_declareProperty_self hvisible

section Written

variable (hget : d.definitions.get? owner = some definition)
  (hproperties : definition.properties = before ++ p :: after) (hu : d.Expands p.type u)

include hget hproperties hu

theorem Tabulates.retyped (h : d.Tabulates t)
    (h' : (d.redeclare owner (before ++ { p with type := u } :: after)).Tabulates t') :
    List.Forall₂ (fun e e' => e'.1 = e.1 ∧ ModelRetyped p u (p.name ∉ after.map (·.name)) e.2 e'.2)
      t.models.entries t'.models.entries := by
  apply forall₂_join h.models (List.forall₂_map_left_iff.1 h'.models)
  rintro ⟨name, _⟩ ⟨_, m⟩ ⟨_, m'⟩ ⟨rfl, hm⟩ ⟨rfl, hm'⟩
  refine ⟨rfl, hm.retyped hm' hu ?_ fun ps hps => hps.retyped hget hproperties⟩
  dsimp only
  split <;> rfl

/-- The owner's model has a field from the property, and it lists other values unless there are none. -/
theorem Tabulates.allowedValues_eq_nil (h : d.Tabulates t)
    (h' : (d.redeclare owner (before ++ { p with type := u } :: after)).Tabulates t')
    (hsame : t'.models = t.models) (hvisible : p.name ∉ after.map (·.name)) :
    Resolution.allowedValues u = [] := by
  have hget' := redeclare_get? d owner (before ++ { p with type := u } :: after) owner
  rw [hget, Option.map_some, if_pos rfl] at hget'
  obtain ⟨m, hm, hmodel⟩ := h.model_of_definition hget
  obtain ⟨m', hm', hmodel'⟩ := h'.model_of_definition hget'
  rw [hsame] at hm'
  cases hm.symm.trans hm'
  obtain ⟨f, hf, v, -, hp⟩ := hmodel.exists_field hget hproperties hvisible
  obtain ⟨f', hf', v', -, hp'⟩ := hmodel'.exists_field hget' rfl hvisible
  have hfields : f = f' := by
    apply List.inj_on_of_nodup_map hmodel.nodup_names hf hf'
    rw [hp, hp']
  have hlisted := congrArg FieldEntry.allowedValues hfields
  rw [hp, hp', hu.allowedValues_eq_nil] at hlisted
  exact hlisted.symm

/-- With an alias written out in a property there are the same models, and they differ at most in the
values that the fields from this property list. They do differ where the type of the alias lists
values, unless the property is declared again by its owner and makes no field at all. -/
theorem alias_transparency (h : resolve d = .ok t) :
    ∃ t', resolve (d.redeclare owner (before ++ { p with type := u } :: after)) = .ok t' ∧
      List.Forall₂ (fun e e' => e'.1 = e.1 ∧
          ModelRetyped p u (p.name ∉ after.map (·.name)) e.2 e'.2)
        t.models.entries t'.models.entries ∧
      (t'.models = t.models ↔
        Resolution.allowedValues u = [] ∨ p.name ∈ after.map (·.name)) := by
  obtain ⟨htable, hops⟩ := tabulates_of_resolve h
  obtain ⟨t', ht'⟩ :=
    exists_resolve_iff.2 ((htable.resolvable hops).redeclare hget hproperties hu)
  obtain ⟨htable', -⟩ := tabulates_of_resolve ht'
  have hentries := htable.retyped hget hproperties hu htable'
  refine ⟨t', ht', hentries, fun hsame => ?_, fun hsame => ?_⟩
  · rw [or_iff_not_imp_right]
    exact htable.allowedValues_eq_nil hget hproperties hu htable' hsame
  · have hequal : List.Forall₂ Eq t.models.entries t'.models.entries := by
      apply hentries.imp
      rintro ⟨name, m⟩ ⟨_, m'⟩ ⟨rfl, hm⟩
      exact Prod.ext rfl (hm.eq fun hvisible => hsame.resolve_right hvisible).symm
    rw [List.forall₂_eq_eq_eq] at hequal
    rw [OrderedMap.mk.injEq]
    exact hequal.symm

end Written

/-- The status of a pet, as a reference or as the type that the reference stands for. -/
def petStatus (type : TypeRef) : Property :=
  { name := "status", type, required := true, nullable := false, description := none }

def petStatuses : TypeRef := .primitive "string" none ["available", "sold"]

def pet : Definition :=
  { name := "Pet"
    description := none
    bases := []
    properties := [petStatus (.reference "Status")] }

/-- Pets with a status, which is an alias. -/
def petStore : Document :=
  { definitions := .ofList [("Pet", pet)]
    aliases := .ofList [("Status", petStatuses)]
    operations := []
    baseEndpoint := none
    title := none }

theorem petStore_resolves : ∃ t, resolve petStore = .ok t ∧ t.models.names = ["Pet"] := by
  have hresolve : (resolve petStore).map (·.models.names) = .ok ["Pet"] := by
    decide +kernel
  exact map_eq_ok_iff.1 hresolve

theorem petStore_expands :
    petStore.Expands (petStatus (.reference "Status")).type petStatuses :=
  .reference (by decide) rfl

/-- The statuses of a pet are listed once the alias is written out, but not before. -/
theorem petStore_written : ∃ t t', resolve petStore = .ok t ∧
    resolve (petStore.redeclare "Pet" [petStatus petStatuses]) = .ok t' ∧
    t'.models.names = ["Pet"] ∧ t'.models ≠ t.models := by
  obtain ⟨t, ht, hnames⟩ := petStore_resolves
  have hpet : petStore.definitions.get? "Pet" = some pet := rfl
  have hproperties : pet.properties = [] ++ petStatus (.reference "Status") :: [] := rfl
  obtain ⟨t', ht', hentries, hsame⟩ := alias_transparency hpet hproperties petStore_expands ht
  refine ⟨t, t', ht, ht', ?_, ?_⟩
  · rw [← hnames]
    exact (map_eq_map_of_forall₂ hentries fun _ _ he => he.1.symm).symm
  · rw [ne_eq, hsame]
    decide

/-- Writing out an alias changes the models of some document. -/
theorem alias_not_transparent : ¬ ∀ (d : Document) (t : TypeTable) (owner : String)
    (definition : Definition) (before : List Property) (p : Property) (after : List Property)
    (u : TypeRef), resolve d = .ok t → d.definitions.get? owner = some definition →
    definition.properties = before ++ p :: after → d.Expands p.type u →
    ∃ t', resolve (d.redeclare owner (before ++ { p with type := u } :: after)) = .ok t' ∧
      t'.models = t.models := by
  intro hall
  obtain ⟨t, ht, -⟩ := petStore_resolves
  obtain ⟨t', ht', hsame⟩ := hall petStore t "Pet" _ [] _ [] _ ht rfl rfl petStore_expands
  obtain ⟨htable, -⟩ := tabulates_of_resolve ht
  obtain ⟨htable', -⟩ := tabulates_of_resolve ht'
  have hlisted : Resolution.allowedValues petStatuses = [] :=
    htable.allowedValues_eq_nil rfl rfl petStore_expands htable' hsame List.not_mem_nil
  exact absurd hlisted (by decide)

end Schema.Document

end TypedClient
