import TypedClient.Proofs.DeclaredModels
import TypedClient.Proofs.HeldModels
import TypedClient.Proofs.Order.Unneeded
import TypedClient.Proofs.Resolution.Reordering

/-!
# Documents that grow

A definition is added at the end of a document that does without it. Whatever it extends and mentions,
nothing mentions it. So the table has the same models and one more, and the declarations are the same
in the same order, with the declaration of the new model somewhere among them.
-/

open Relation

namespace TypedClient

open Schema (TypeRef Property Definition)

/-! ## Tables -/

namespace TypeTable

variable {t t' : TypeTable} {x e : ModelEntry} {f : FieldEntry} {a b : String}

/-- `t'` has one more model than `t`, at the end; the models of `t` mention each other only. -/
structure Grows (t t' : TypeTable) (x : ModelEntry) : Prop where
  values : t'.models.values = t.models.values ++ [x]
  closed : t.Closed
  firstUses : ∀ e ∈ t.models.values, FirstUses e.fields e.dependencies

namespace Grows

variable (h : t.Grows t' x)

include h

theorem name_not_mem : x.name ∉ t.models.names := by
  have hdistinct := t'.distinct_models
  rw [ModelEntry.Distinct, h.values, List.map_append, map_name_values] at hdistinct
  exact fun hx => (List.nodup_append.1 hdistinct).2.2 _ hx _ (List.mem_singleton_self _) rfl

theorem mem_values (he : e ∈ t.models.values) : e ∈ t'.models.values :=
  h.values ▸ List.mem_append_left _ he

theorem mem_names (he : e ∈ t.models.values) {name : String} (hname : name ∈ e.dependencies) :
    name ∈ t.models.names := by
  obtain ⟨f, hf, hmentions⟩ := ((h.firstUses e he).mem_iff name).1 hname
  exact (h.closed e he f hf).mentions name hmentions

theorem unneeded : ModelEntry.Unneeded t'.models.values x := by
  rintro e ⟨he, -, hname, hne⟩
  rw [h.values] at he
  rcases List.mem_append.1 he with he | he
  · exact h.name_not_mem (h.mem_names he hname)
  · -- only the new model is left, and what refers to itself does not need itself
    exact hne (congrArg ModelEntry.name (List.mem_singleton.1 he).symm)

theorem others_values : ModelEntry.others t'.models.values x = t.models.values := by
  have hname : ∀ e ∈ t.models.values, e.name ≠ x.name := by
    intro e he heq
    have hmem := List.mem_map_of_mem (f := ModelEntry.name) he
    rw [heq, map_name_values] at hmem
    exact h.name_not_mem hmem
  rw [h.values, ModelEntry.others, List.filter_append]
  simpa using hname

theorem holds (hab : t.Holds a b) : t'.Holds a b := by
  obtain ⟨e, he, rfl, hb⟩ := hab
  exact ⟨e, h.mem_values he, rfl, hb⟩

theorem holds_iff (ha : a ∈ t.models.names) : t'.Holds a b ↔ t.Holds a b := by
  refine ⟨?_, h.holds⟩
  rintro ⟨e, he, rfl, hb⟩
  rw [h.values] at he
  rcases List.mem_append.1 he with he | he
  · exact ⟨e, he, rfl, hb⟩
  · rw [List.mem_singleton.1 he] at ha
    exact absurd ha h.name_not_mem

/-- From a model of `t` the held models lead to the same as in `t`. -/
theorem leads_iff (ha : a ∈ t.models.names) :
    ReflTransGen t'.Holds a b ↔ ReflTransGen t.Holds a b := by
  refine ⟨fun hway => ?_, ReflTransGen.mono (fun _ _ => h.holds) a b⟩
  induction hway using ReflTransGen.head_induction_on with
  | refl => exact .refl
  | head hac _ ih =>
    -- what a model of `t` holds is one as well, so that the way never comes to the new one
    have hac := (h.holds_iff ha).1 hac
    obtain ⟨e, he, -, f, hf, hc⟩ := id hac
    exact .head hac (ih ((h.closed e he f hf).mentions _ hc.mentions))

theorem isCyclic_eq (he : e ∈ t.models.values) (hf : f ∈ e.fields) :
    ModelEntry.isCyclic t'.models.values e.name f = ModelEntry.isCyclic t.models.values e.name f := by
  rw [Bool.eq_iff_iff, isCyclic_iff, isCyclic_iff]
  refine exists_congr fun target => and_congr_right fun htarget => ?_
  exact h.leads_iff ((h.closed e he f hf).mentions target htarget.mentions)

theorem declare_eq (he : e ∈ t.models.values) :
    e.declare t'.models.values = e.declare t.models.values := by
  have hfields : e.fields.map (·.declare t'.models.values e.name) =
      e.fields.map (·.declare t.models.values e.name) := by
    refine List.map_congr_left fun f hf => ?_
    rw [FieldEntry.declare, h.isCyclic_eq he hf]
    rfl
  rw [ModelEntry.declare, hfields]
  rfl

/-- Without the new model the declarations are those of `t`. -/
theorem declarations_eq : t'.declarations.filter (·.name ≠ x.name) = t.declarations := by
  have hx : x ∈ t'.models.values := h.values ▸ List.mem_append_right _ (List.mem_singleton_self x)
  have horder := h.unneeded.others_ordered t'.distinct_models hx
  rw [h.others_values] at horder
  have hfilter : t'.declarations.filter (·.name ≠ x.name) =
      (ModelEntry.ordered t.models.values).map (·.declare t'.models.values) := by
    rw [declarations, List.filter_map, ← horder]
    rfl
  rw [hfilter, declarations]
  exact List.map_congr_left fun e he =>
    h.declare_eq ((ModelEntry.mem_ordered t.distinct_models).1 he)

end Grows

end TypeTable

/-! ## Documents -/

namespace Schema.Document

variable {d : Document} {t t' : TypeTable} {name : String} {definition : Definition}

/-- The document with the definition under the name, which stands at the end if it is new. -/
def define (d : Document) (name : String) (definition : Definition) : Document :=
  { d with definitions := d.definitions.insert name definition }

theorem includedIn_define (hname : ¬ d.knows name) : d.IncludedIn (d.define name definition) := by
  rw [knows_iff, not_or] at hname
  refine ⟨fun key value hget => ?_, fun _ _ halias => halias, fun key halias hkey => ?_⟩
  · have hne : key ≠ name := fun heq => hname.1 (heq ▸ OrderedMap.mem_names_of_get? hget)
    rw [define, OrderedMap.get?_insert, if_neg hne]
    exact hget
  · exact (OrderedMap.mem_names_insert.1 hkey).resolve_left fun heq => hname.2 (heq ▸ halias)

/-- Tables of one document have the same models. -/
theorem models_unique {entries : List (String × Definition)} {ms ms' : List (String × ModelEntry)}
    (h : List.Forall₂ (fun e e' => e'.1 = e.1 ∧ d.ModelOf e.1 e.2 e'.2) entries ms)
    (h' : List.Forall₂ (fun e e' => e'.1 = e.1 ∧ d.ModelOf e.1 e.2 e'.2) entries ms') : ms = ms' := by
  have hequal : List.Forall₂ Eq ms ms' :=
    forall₂_join h h' fun _ _ _ hm hm' => Prod.ext (hm.1.trans hm'.1.symm) (hm.2.unique hm'.2)
  rwa [List.forall₂_eq_eq_eq] at hequal

theorem Tabulates.grows (ht : d.Tabulates t) (ht' : (d.define name definition).Tabulates t')
    (hclosed : t.Closed) (hname : ¬ d.knows name) : ∃ x, x.name = name ∧ t.Grows t' x := by
  have hnew : name ∉ d.definitions.names := fun hmem =>
    hname (Document.knows_iff.2 (.inl hmem))
  have hentries : (d.define name definition).definitions.entries =
      d.definitions.entries ++ [(name, definition)] := OrderedMap.entries_insert hnew
  have hget : (d.define name definition).definitions.get? name = some definition := by
    rw [define, OrderedMap.get?_insert, if_pos rfl]
  obtain ⟨x, -, hx⟩ := ht'.model_of_definition hget
  -- the models of the smaller document with the new one are a list of models of the larger one
  have hmodels : t'.models.entries = t.models.entries ++ [(name, x)] := by
    apply models_unique ht'.models
    rw [hentries]
    refine List.rel_append (ht.models.imp fun e e' he => ?_) (.cons ⟨rfl, hx⟩ .nil)
    exact ⟨he.1, (includedIn_define hname).modelOf he.2⟩
  refine ⟨x, hx.name_eq, ?_, hclosed, fun e he => ht.firstUses he⟩
  rw [OrderedMap.values, hmodels, List.map_append]
  rfl

/-- A definition that is added at the end leaves all declarations as they were: each is the same, with
the same fields and the same cyclic ones, and they are in the same order. -/
theorem declarations_define (hname : ¬ d.knows name) (ht : resolve d = .ok t)
    (ht' : resolve (d.define name definition) = .ok t') :
    t'.declarations.filter (·.name ≠ name) = t.declarations := by
  obtain ⟨htable, -⟩ := tabulates_of_resolve ht
  obtain ⟨htable', -⟩ := tabulates_of_resolve ht'
  obtain ⟨x, rfl, hgrows⟩ := htable.grows htable' (TypeTable.closed_of_resolve ht) hname
  exact hgrows.declarations_eq

/-- Owners and pets need each other, and so do shops and clerks. -/
def town : Document :=
  let definition (name property target : String) :=
    (name, { name, description := none, bases := [], properties := [
      { name := property, type := .reference target, required := true, nullable := false,
        description := none }] : Definition })
  { definitions := .ofList [definition "Owner" "pet" "Pet", definition "Pet" "owner" "Owner",
      definition "Shop" "clerk" "Clerk", definition "Clerk" "shop" "Shop"]
    aliases := ∅
    operations := []
    baseEndpoint := none
    title := none }

/-- A dog is a pet and has a mother. -/
def dog : Definition :=
  { name := "Dog"
    description := none
    bases := ["Pet"]
    properties := [
      { name := "mother", type := .reference "Dog", required := false, nullable := false,
        description := none }] }

/-- The dog comes out before the second cycle is broken, and all else stays as it was. -/
theorem town_with_dog : ¬ town.knows "Dog" ∧ ∃ t t', resolve town = .ok t ∧
    resolve (town.define "Dog" dog) = .ok t' ∧
    t'.declarations.map (·.name) = ["Owner", "Pet", "Dog", "Shop", "Clerk"] ∧
    t'.declarations.filter (·.name ≠ "Dog") = t.declarations := by
  have hnew : ¬ town.knows "Dog" := by decide
  have htown : (resolve town).map (·.models.names) = .ok ["Owner", "Pet", "Shop", "Clerk"] := by
    decide +kernel
  have hdog : (resolve (town.define "Dog" dog)).map (fun t => t.declarations.map (·.name)) =
      .ok ["Owner", "Pet", "Dog", "Shop", "Clerk"] := by
    decide +kernel
  obtain ⟨t, ht, -⟩ := map_eq_ok_iff.1 htown
  obtain ⟨t', ht', hnames⟩ := map_eq_ok_iff.1 hdog
  exact ⟨hnew, t, t', ht, ht', hnames, declarations_define hnew ht ht'⟩

end Schema.Document

end TypedClient
