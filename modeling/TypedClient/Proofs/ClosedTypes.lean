import Mathlib.Data.List.Induction
import TypedClient.Generation
import TypedClient.Proofs.JsonText
import TypedClient.Proofs.Order.Declarations
import TypedClient.Proofs.Resolution.Acceptance
import TypedClient.Proofs.Source.Names

/-!
# Closed types

The value types of a generation mention models that it declares, and are nullable at their root
only. Types that a document denotes are of this form and stay so in fields, arguments and results;
ordering the models loses none of them.
-/

namespace TypedClient

open Schema (TypeRef)

/-! ## Closed types -/

namespace ValueType

variable {t : ValueType} {names : List String} {name : String}

/-- The type mentions a model, at any depth. -/
inductive Mentions : ValueType → String → Prop where
  | model (name : String) : Mentions (.model name) name
  | array {items : ValueType} {name : String} (h : Mentions items name) :
      Mentions (.array items) name
  | map {values : ValueType} {name : String} (h : Mentions values name) :
      Mentions (.map values) name
  | nullable {inner : ValueType} {name : String} (h : Mentions inner name) :
      Mentions (.nullable inner) name

/-- No part of the type is nullable. -/
inductive NullFree : ValueType → Prop where
  | primitive (kind : Primitive) : NullFree (.primitive kind)
  | array {items : ValueType} (h : NullFree items) : NullFree (.array items)
  | map {values : ValueType} (h : NullFree values) : NullFree (.map values)
  | model (name : String) : NullFree (.model name)

/-- The type mentions models of `names` only, and is nullable at its root at most. -/
structure Closed (names : List String) (t : ValueType) : Prop where
  mentions : ∀ name, t.Mentions name → name ∈ names
  nullFree : t.nonNull.NullFree

theorem mentions_iff : t.Mentions name ↔ t.model? = some name := by
  constructor
  · intro h
    induction h with
    | model => rfl
    | array _ ih => exact ih
    | map _ ih => exact ih
    | nullable _ ih => exact ih
  · intro h
    induction t with
    | primitive => cases h
    | array items ih => exact .array (ih h)
    | map values ih => exact .map (ih h)
    | nullable inner ih => exact .nullable (ih h)
    | model =>
      cases h
      exact .model _

theorem NullFree.nonNull_eq (h : t.NullFree) : t.nonNull = t := by
  cases h <;> rfl

theorem Closed.orNull (h : t.Closed names) : t.orNull.Closed names := by
  cases t with
  | nullable => exact h
  | _ => exact ⟨fun name hname => h.mentions name (by cases hname; assumption), h.nullFree⟩

theorem Closed.of_nullFree (hmentions : ∀ name, t.Mentions name → name ∈ names)
    (h : t.NullFree) : t.Closed names :=
  ⟨hmentions, h.nonNull_eq.symm ▸ h⟩

end ValueType

open ValueType (Closed)

namespace Schema.Document

variable {d : Document} {type : TypeRef} {v : ValueType} {t : TypeTable}

theorem Denotes.nullFree (h : d.Denotes type v) : v.NullFree := by
  induction h with
  | primitive => exact .primitive _
  | array _ ih => exact .array ih
  | map _ ih => exact .map ih
  | any => exact .primitive _
  | model => exact .model _
  | aliased _ _ _ ih => exact ih

theorem Denotes.mentions (h : d.Denotes type v) {name : String} (hname : v.Mentions name) :
    name ∈ d.definitions.names := by
  induction h with
  | primitive => cases hname
  | array _ ih =>
    cases hname with
    | array hname => exact ih hname
  | map _ ih =>
    cases hname with
    | map hname => exact ih hname
  | any => cases hname
  | model hmem =>
    cases hname
    exact hmem
  | aliased _ _ _ ih => exact ih hname

theorem Denotes.closed (h : d.Denotes type v) : v.Closed d.definitions.names :=
  .of_nullFree (fun _ => h.mentions) h.nullFree

theorem FieldOf.closed {p : Property} {f : FieldEntry} (h : d.FieldOf p f) :
    f.type.Closed d.definitions.names := by
  obtain ⟨v, hv, rfl⟩ := h
  dsimp only
  split
  · exact hv.closed
  · exact hv.closed.orNull

theorem Tabulates.closed_field (h : d.Tabulates t) {m : ModelEntry} (hm : m ∈ t.models.values)
    {f : FieldEntry} (hf : f ∈ m.fields) : f.type.Closed d.definitions.names := by
  obtain ⟨⟨name, _⟩, hmem, rfl⟩ := List.mem_map.1 hm
  obtain ⟨definition, -, ps, fields, -, hfields, hm⟩ :=
    h.definition_of_model (OrderedMap.get?_eq_some_iff.2 hmem)
  rw [hm] at hf
  obtain ⟨p, -, hp⟩ := exists_of_mem_right hfields hf
  exact hp.closed

/-- A table resolves types to what they denote. -/
theorem Tabulates.denotes_of_typeOf (h : d.Tabulates t) (hv : t.typeOf type = .ok v) :
    d.Denotes type v := by
  induction type generalizing v with
  | primitive kind format values =>
    simp only [TypeTable.typeOf] at hv
    split at hv
    · rename_i hkind
      cases hv
      exact .primitive hkind
    · cases hv
  | array items ih =>
    obtain ⟨w, hw, rfl⟩ := map_eq_ok_iff.1 hv
    exact .array (ih hw)
  | map values ih =>
    obtain ⟨w, hw, rfl⟩ := map_eq_ok_iff.1 hv
    exact .map (ih hw)
  | any =>
    cases hv
    exact .any
  | reference name =>
    simp only [TypeTable.typeOf, TypeTable.referenceType, OrderedMap.contains_iff, h.names] at hv
    split at hv
    · rename_i hname
      cases hv
      exact .model hname
    · rename_i hname
      split at hv
      -- only a name without a model is looked up among the aliases
      · rename_i w halias
        cases hv
        obtain ⟨type, halias, hv⟩ := h.aliases name v halias
        exact .aliased hname halias hv
      · cases hv

end Schema.Document

/-! ## Methods -/

section Methods

variable {t : TypeTable} {names : List String} {o : Schema.Operation}

namespace Method

/-- A type that the method takes or returns. -/
def HasType (m : Method) (type : ValueType) : Prop :=
  (∃ a ∈ m.arguments, a.type = type) ∨ m.returns = some type

/-! What the table gives is closed, and so is what becomes of it. -/

section Closed

variable (ht : ∀ type v, t.typeOf type = .ok v → v.Closed names)

include ht

theorem typeOf_closed {part : String} {type : TypeRef} {v : ValueType}
    (h : typeOf t o part type = .ok v) : v.Closed names := by
  unfold typeOf at h
  split at h
  · rename_i w hw
    cases h
    exact ht type v hw
  · cases h
  · cases h

theorem scalarTypeOf_closed {part : String} {type : TypeRef} {v : ValueType}
    (h : scalarTypeOf t o part type = .ok v) : v.Closed names := by
  obtain ⟨w, hw, h⟩ := bind_eq_ok_iff.1 h
  split at h
  · cases h
    exact typeOf_closed ht hw
  · cases h

theorem argumentType_closed {hasBody : Bool} {p : Schema.Parameter} {v : ValueType}
    (h : argumentType t o hasBody p = .ok v) : v.Closed names := by
  have hunless {w : ValueType} (hw : w.Closed names) :
      (if p.required then w else w.orNull).Closed names := by
    split
    · exact hw
    · exact hw.orNull
  cases hcarrier : p.carrier with
  | path =>
    simp only [argumentType, hcarrier] at h
    exact scalarTypeOf_closed ht h
  | query | header =>
    simp only [argumentType, hcarrier] at h
    obtain ⟨w, hw, rfl⟩ := map_eq_ok_iff.1 h
    exact hunless (scalarTypeOf_closed ht hw)
  | body =>
    simp only [argumentType, hcarrier] at h
    split at h
    · cases h
    · obtain ⟨w, hw, rfl⟩ := map_eq_ok_iff.1 h
      exact hunless (typeOf_closed ht hw)
  | formData | cookie => simp [argumentType, hcarrier] at h

theorem argumentsFor_closed {hasBody : Bool} {ps : List Schema.Parameter} {arguments : List Argument}
    (h : argumentsFor t o hasBody ps = .ok arguments) : ∀ a ∈ arguments, a.type.Closed names := by
  induction ps generalizing hasBody arguments with
  | nil =>
    cases h
    exact fun _ ha => absurd ha List.not_mem_nil
  | cons p ps ih =>
    obtain ⟨v, hv, h⟩ := bind_eq_ok_iff.1 h
    obtain ⟨rest, hrest, h⟩ := bind_eq_ok_iff.1 h
    cases h
    exact List.forall_mem_cons.2 ⟨argumentType_closed ht hv, ih hrest⟩

theorem returnsFor_closed {v : ValueType} (h : returnsFor t o = .ok (some v)) :
    v.Closed names := by
  unfold returnsFor at h
  split at h
  · cases h
  · split at h
    · cases h
    · obtain ⟨w, hw, h⟩ := bind_eq_ok_iff.1 h
      cases h
      split
      · exact (typeOf_closed ht hw).orNull
      · exact typeOf_closed ht hw

theorem ofOperation_closed {m : Method} (h : ofOperation t o = .ok m) {type : ValueType}
    (htype : m.HasType type) : type.Closed names := by
  obtain ⟨arguments, harguments, h⟩ := bind_eq_ok_iff.1 h
  have hrest : ∃ returns, returnsFor t o = .ok returns ∧ m.arguments = arguments ∧
      m.returns = returns := by
    dsimp only at h
    split at h
    · cases h
    · obtain ⟨returns, hreturns, h⟩ := bind_eq_ok_iff.1 h
      cases h
      exact ⟨returns, hreturns, rfl, rfl⟩
  obtain ⟨returns, hreturns, hm, hm'⟩ := hrest
  rcases htype with ⟨a, ha, rfl⟩ | hreturn
  · exact argumentsFor_closed ht harguments a (hm ▸ ha)
  · rw [← hm', hreturn] at hreturns
    exact returnsFor_closed ht hreturns

end Closed

end Method

/-- Each method is that of an operation. -/
theorem exists_of_mem_outcomes {taken : List String} {os : List Schema.Operation}
    {outcomes : List Outcome} (h : Outcome.ofOperations t taken os = .ok outcomes) {m : Method}
    (hm : .generated m ∈ outcomes) : ∃ o ∈ os, Method.ofOperation t o = .ok m := by
  induction os generalizing taken outcomes with
  | nil =>
    cases h
    exact absurd hm List.not_mem_nil
  | cons o os ih =>
    obtain ⟨outcome, houtcome, h⟩ := bind_eq_ok_iff.1 h
    obtain ⟨rest, hrest, h⟩ := bind_eq_ok_iff.1 h
    cases h
    rcases List.mem_cons.1 hm with rfl | hm
    · refine ⟨o, List.mem_cons_self, ?_⟩
      unfold Outcome.ofOperation at houtcome
      split at houtcome
      · rename_i m' hm'
        split at houtcome
        · cases houtcome
        · cases houtcome
          exact hm'
      · cases houtcome
      · cases houtcome
    · obtain ⟨o, ho, hm⟩ := ih hrest hm
      exact ⟨o, List.mem_cons_of_mem _ ho, hm⟩

theorem exists_of_mem_methods {os : List Schema.Operation} {methods : List Method}
    {skipped : List Skipped} (h : t.methods os = .ok (methods, skipped)) {m : Method}
    (hm : m ∈ methods) : ∃ o ∈ os, Method.ofOperation t o = .ok m := by
  obtain ⟨outcomes, houtcomes, heq⟩ := map_eq_ok_iff.1 h
  cases heq
  obtain ⟨outcome, houtcome, hgenerated⟩ := List.mem_filterMap.1 hm
  cases outcome with
  | skipped => cases hgenerated
  | generated m' =>
    cases hgenerated
    exact exists_of_mem_outcomes houtcomes houtcome

end Methods

/-! ## Dependencies -/

/-- The first of the fields that mentions the model, by its place. -/
def firstUse (fields : List FieldEntry) (name : String) : Nat :=
  fields.findIdx (·.type.model? = some name)

/-- The models that fields mention, each listed once and in the order of its first use. -/
structure FirstUses (fields : List FieldEntry) (listed : List String) : Prop where
  nodup : listed.Nodup
  mem_iff : ∀ name, name ∈ listed ↔ ∃ f ∈ fields, f.type.Mentions name
  order : listed.Pairwise fun a b => firstUse fields a < firstUse fields b

namespace FirstUses

variable {fields : List FieldEntry} {listed : List String} {f : FieldEntry} {name : String}

theorem firstUse_lt (h : FirstUses fields listed) (hname : name ∈ listed) :
    firstUse fields name < fields.length := by
  obtain ⟨f, hf, hmentions⟩ := (h.mem_iff name).1 hname
  exact List.findIdx_lt_length_of_exists ⟨f, hf, by simpa using ValueType.mentions_iff.1 hmentions⟩

theorem firstUse_append (h : FirstUses fields listed) (hname : name ∈ listed) :
    firstUse (fields ++ [f]) name = firstUse fields name := by
  rw [firstUse, List.findIdx_append]
  exact if_pos (h.firstUse_lt hname)

theorem order_append (h : FirstUses fields listed) :
    listed.Pairwise fun a b => firstUse (fields ++ [f]) a < firstUse (fields ++ [f]) b := by
  apply h.order.imp_of_mem
  intro a b ha hb hab
  rwa [h.firstUse_append ha, h.firstUse_append hb]

theorem mem_iff_append (h : FirstUses fields listed) :
    name ∈ listed ∨ f.type.model? = some name ↔
      ∃ g ∈ fields ++ [f], g.type.Mentions name := by
  rw [h.mem_iff, ← ValueType.mentions_iff]
  simp [or_and_right, exists_or]

/-- One more field. -/
theorem addModels (h : FirstUses fields listed) :
    FirstUses (fields ++ [f]) (f.type.addModels listed) := by
  unfold ValueType.addModels
  cases hmodel : f.type.model? with
  | none =>
    refine ⟨h.nodup, fun name => ?_, h.order_append⟩
    rw [← h.mem_iff_append, hmodel]
    simp
  | some name =>
    dsimp only
    split
    · rename_i hlisted
      refine ⟨h.nodup, fun key => ?_, h.order_append⟩
      rw [← h.mem_iff_append, hmodel]
      exact ⟨.inl, fun hkey => hkey.elim id fun heq => Option.some.inj heq ▸ hlisted⟩
    · rename_i hlisted
      -- what was not listed is used by no earlier field
      have hlast : firstUse (fields ++ [f]) name = fields.length := by
        have hnone : ¬ firstUse fields name < fields.length := by
          intro hlt
          obtain ⟨g, hg, hgname⟩ := List.findIdx_lt_length.1 hlt
          refine hlisted ((h.mem_iff name).2 ⟨g, hg, ValueType.mentions_iff.2 ?_⟩)
          simpa using hgname
        rw [firstUse, List.findIdx_append]
        exact (if_neg hnone).trans (by simp [hmodel])
      refine ⟨?_, fun key => ?_, ?_⟩
      · exact List.nodup_append.2 ⟨h.nodup, by simp, fun a ha b hb => by
          rintro rfl
          exact hlisted (List.mem_singleton.1 hb ▸ ha)⟩
      · rw [← h.mem_iff_append, hmodel]
        simp [eq_comm]
      · refine List.pairwise_append.2 ⟨h.order_append, by simp, fun a ha b hb => ?_⟩
        rw [List.mem_singleton.1 hb, hlast, h.firstUse_append ha]
        exact h.firstUse_lt ha

end FirstUses

theorem firstUses_dependencies (fields : List FieldEntry) :
    FirstUses fields (Resolution.dependencies fields) := by
  -- by the last field, which can only add to the end of what is listed
  induction fields using List.reverseRecOn with
  | nil => exact ⟨List.nodup_nil, by simp [Resolution.dependencies], .nil⟩
  | append_singleton fields f ih =>
    have hstep : Resolution.dependencies (fields ++ [f]) =
        f.type.addModels (Resolution.dependencies fields) := by
      simp [Resolution.dependencies]
    rw [hstep]
    exact ih.addModels

theorem Schema.Document.Tabulates.firstUses {d : Schema.Document} {t : TypeTable}
    (h : d.Tabulates t) {m : ModelEntry} (hm : m ∈ t.models.values) :
    FirstUses m.fields m.dependencies := by
  obtain ⟨⟨name, _⟩, hmem, rfl⟩ := List.mem_map.1 hm
  obtain ⟨definition, -, ps, fields, -, -, hm⟩ :=
    h.definition_of_model (OrderedMap.get?_eq_some_iff.2 hmem)
  rw [hm]
  exact firstUses_dependencies fields

/-! ## Generations -/

namespace Generation

variable {s : Settings} {text : String} {g : Generation}

/-- A type of a field, an argument or a result. -/
def HasType (g : Generation) (type : ValueType) : Prop :=
  (∃ m ∈ g.models, ∃ f ∈ m.fields, f.type = type) ∨ ∃ m ∈ g.client.methods, m.HasType type

theorem closed_of_field {d : Schema.Document} {t : TypeTable} (ht : d.Tabulates t) {m : Model}
    (hm : m ∈ t.declarations) {f : Field} (hf : f ∈ m.fields) :
    f.type.Closed d.definitions.names := by
  obtain ⟨e, he, rfl⟩ := List.mem_map.1 hm
  obtain ⟨entry, hentry, rfl⟩ := List.mem_map.1 hf
  exact ht.closed_field ((ModelEntry.mem_ordered t.distinct_models).1 he) hentry

theorem closed_of_method {d : Schema.Document} {t : TypeTable} (ht : d.Tabulates t)
    {os : List Schema.Operation} {methods : List Method} {skipped : List Skipped}
    (hmethods : t.methods os = .ok (methods, skipped)) {m : Method} (hm : m ∈ methods)
    {type : ValueType} (htype : m.HasType type) : type.Closed d.definitions.names := by
  obtain ⟨o, -, ho⟩ := exists_of_mem_methods hmethods hm
  exact Method.ofOperation_closed (fun _ _ hv => (ht.denotes_of_typeOf hv).closed) ho htype

/-- All types of a generation are closed, and the models that they can mention have identifiers. The
dependencies of a model are the models that its fields mention. -/
theorem types_closed (h : s.generate text = .ok g) :
    (∀ type, g.HasType type → type.Closed (g.models.map (·.name))) ∧
    (∀ name ∈ g.models.map (·.name), ∃ identifier,
      (Source.TypeNames.ofModels g.models g.client).models.get? name = some identifier) ∧
    ∃ r, Resolved.ofText text = .ok r ∧ g.models = r.table.declarations ∧
      ∀ m ∈ r.table.models.values, FirstUses m.fields m.dependencies := by
  obtain ⟨r, hr, h⟩ := bind_eq_ok_iff.1 h
  obtain ⟨⟨methods, skipped⟩, hmethods, h⟩ := bind_eq_ok_iff.1 h
  cases h
  obtain ⟨d, -, hd⟩ := bind_eq_ok_iff.1 hr
  obtain ⟨t, ht, hd⟩ := bind_eq_ok_iff.1 hd
  cases hd
  obtain ⟨htable, -⟩ := tabulates_of_resolve ht
  have hnames {type : ValueType} (hclosed : type.Closed d.definitions.names) :
      type.Closed (t.declarations.map (·.name)) := by
    refine ⟨fun name hname => ?_, hclosed.nullFree⟩
    rw [TypeTable.mem_names_declarations, htable.names]
    exact hclosed.mentions name hname
  refine ⟨?_, fun name hname => ?_, ⟨d, t⟩, hr, rfl, fun m hm => htable.firstUses hm⟩
  · rintro type (⟨m, hm, f, hf, rfl⟩ | ⟨m, hm, htype⟩)
    · exact hnames (closed_of_field htable hm hf)
    · exact hnames (closed_of_method htable hmethods hm htype)
  · exact OrderedMap.mem_names_iff.1 (Source.TypeNames.mem_names_ofModels.2 hname)

open Json (record quote)

/-- Nodes that refer to a next one, and an operation that returns a node. -/
def nodeText : String :=
  record [
    ("swagger", quote "2"),
    ("definitions", record [("Node", record [("properties", record [
      ("next", record [("$ref", quote "#/definitions/Node")])])])]),
    ("paths", record [("/node", record [("get", record [("responses", record [
      ("200", record [("schema", record [("$ref", quote "#/definitions/Node")])])])])])])]

theorem nodeText_closed : ∃ g, ({} : Settings).generate nodeText = .ok g ∧
    g.HasType (.model "Node") ∧ (ValueType.model "Node").Closed (g.models.map (·.name)) := by
  have hreturns : (({} : Settings).generate nodeText).map
      (fun g => g.client.methods.map (·.returns)) = .ok [some (.model "Node")] := by
    rw [Settings.generate, Resolved.ofText, load_eq_documentData ?text]
    case text =>
      simp only [nodeText, Json.toList_record, Json.toList_quote, List.map_cons, List.map_nil]
      rfl
    decide +kernel
  obtain ⟨g, hg, hreturns⟩ := map_eq_ok_iff.1 hreturns
  have hmem : some (.model "Node") ∈ g.client.methods.map (·.returns) :=
    hreturns ▸ List.mem_cons_self
  obtain ⟨m, hm, hmodel⟩ := List.mem_map.1 hmem
  have htype : g.HasType (.model "Node") := .inr ⟨m, hm, .inr hmodel⟩
  exact ⟨g, hg, htype, (types_closed hg).1 _ htype⟩

end Generation

end TypedClient
