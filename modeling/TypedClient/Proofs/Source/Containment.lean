import TypedClient.Proofs.HeldModels
import TypedClient.Proofs.Source.Casing
import TypedClient.Source.ClientCode

/-!
# Records are finite

A field is cyclic when the model that it holds leads back to the model of the field, from one held
model to the next. In the source it stands behind a pointer. A model that leads back to itself does so
by cyclic fields only, and so no record is a part of itself.
-/

open Relation

namespace TypedClient

/-! ## Contained records -/

namespace Source

/-- A value of the type has a value of the record in it. What stands behind a pointer, in a list or in
a map is not in it. -/
inductive TypeExpr.Contains (record : String) : TypeExpr → Prop where
  | record (arguments : List TypeExpr) : Contains record (.named record arguments)
  | option {t : TypeExpr} (h : Contains record t) : Contains record (.option t)
  | tuple {items : List TypeExpr} {t : TypeExpr} (ht : t ∈ items) (h : Contains record t) :
      Contains record (.tuple items)

def Record.Contains (r s : Record) : Prop := ∃ f ∈ r.fields, f.type.Contains s.name

/-- Containment among some records. -/
def ContainedIn (records : List Record) (r s : Record) : Prop :=
  r ∈ records ∧ s ∈ records ∧ r.Contains s

/-- The records among items. -/
def records (items : List Item) : List Record :=
  items.filterMap fun
    | .record r => some r
    | _         => none

theorem TypeExpr.contains_named_iff {s path : String} {arguments : List TypeExpr} :
    (TypeExpr.named path arguments).Contains s ↔
      s = path ∨ path = "Option" ∧ ∃ t, arguments = [t] ∧ t.Contains s := by
  constructor
  · intro h
    generalize ht : TypeExpr.named path arguments = t at h
    cases h with
    | record => cases ht; exact .inl rfl
    | option h => cases ht; exact .inr ⟨rfl, _, rfl, h⟩
    | tuple => cases ht
  · rintro (rfl | ⟨rfl, t, rfl, h⟩)
    · exact .record _
    · exact .option h

theorem TypeExpr.contains_plain_iff {s path : String} :
    (TypeExpr.plain path).Contains s ↔ s = path := by
  simp [TypeExpr.plain, TypeExpr.contains_named_iff]

namespace TypeNames

variable {ns : TypeNames} {s : String} {boxed : Bool} {type : ValueType}

/-- A name that is none of the types which the source has for primitives and collections. -/
structure OfRecord (s : String) : Prop where
  free : s ∉ Support.names
  capitalized : Capitalized s

theorem OfRecord.ne_of_mem (h : OfRecord s) {path : String} (hpath : path ∈ Support.names) :
    s ≠ path := by
  rintro rfl
  exact h.free hpath

theorem OfRecord.ne_of_not_capitalized (h : OfRecord s) {path : String} (hpath : ¬ Capitalized path) :
    s ≠ path := by
  rintro rfl
  exact hpath h.capitalized

/-- Of the types without `null` only a model that is not boxed contains a record, which is its own. -/
theorem OfRecord.contains_iff_of_nullFree (h : OfRecord s) (hnull : type.NullFree) :
    (ns.typeExpr boxed type).Contains s ↔
      boxed = false ∧ ∃ name, type = .model name ∧ s = ns.model name := by
  cases hnull with
  | primitive kind =>
    have hpath : ∃ path, ns.typeExpr boxed (.primitive kind) = .plain path ∧ s ≠ path := by
      cases kind with
      | text | time => exact ⟨_, rfl, h.ne_of_mem (by decide)⟩
      | integer | real | flag | json => exact ⟨_, rfl, h.ne_of_not_capitalized (by decide)⟩
    obtain ⟨path, hpath, hne⟩ := hpath
    simp [hpath, TypeExpr.contains_plain_iff, hne]
  | array =>
    have hne : s ≠ "Vec" := h.ne_of_mem (by decide)
    simp [typeExpr, TypeExpr.vector, TypeExpr.contains_named_iff, hne]
  | map =>
    have hne : s ≠ "std::collections::BTreeMap" := h.ne_of_not_capitalized (by decide)
    simp [typeExpr, TypeExpr.mapTo, TypeExpr.contains_named_iff, hne]
  | model name =>
    have hne : s ≠ "Box" := h.ne_of_mem (by decide)
    cases boxed <;>
      simp [typeExpr, TypeExpr.boxed, TypeExpr.contains_plain_iff, TypeExpr.contains_named_iff, hne]

theorem OfRecord.contains_typeExpr_iff (h : OfRecord s) (hnull : type.nonNull.NullFree) :
    (ns.typeExpr boxed type).Contains s ↔
      boxed = false ∧ ∃ name, type.Holds name ∧ s = ns.model name := by
  have hoption : s ≠ "Option" := h.ne_of_mem (by decide)
  simp only [ValueType.holds_iff_nonNull]
  rw [← h.contains_iff_of_nullFree hnull]
  cases type with
  | nullable inner =>
    simp [typeExpr, TypeExpr.option, TypeExpr.contains_named_iff, hoption, ValueType.nonNull]
  | _ => rfl

theorem ofRecord_model {models : List Model} {c : Client} {name : String}
    (h : name ∈ models.map (·.name)) : OfRecord ((ofModels models c).model name) where
  free := mt (List.mem_cons_of_mem _) (model_not_mem h)
  capitalized := capitalized_model h

end TypeNames

/-! ## Records of models -/

variable {ns : TypeNames} {models : List Model} {m : Model} {r : Record}

theorem records_modelItems : records (modelItems ns m) = [modelRecord ns m] := rfl

/-- There is one record for each model. -/
theorem records_flatMap :
    records (models.flatMap (modelItems ns)) = models.map (modelRecord ns) := by
  rw [records, List.filterMap_flatMap, List.map_eq_flatMap]
  exact List.flatMap_congr fun m _ => records_modelItems

theorem mem_records_flatMap :
    r ∈ records (models.flatMap (modelItems ns)) ↔ ∃ m ∈ models, r = modelRecord ns m := by
  simp only [records_flatMap, List.mem_map, eq_comm]

theorem map_field_namedFields (m : Model) : (namedFields m).map (·.field) = m.fields := by
  have hlength : m.fields.length ≤ (snakeIdentifiers [] (m.fields.map (·.name))).length := by
    simp [length_snakeIdentifiers]
  rw [namedFields, List.map_map]
  exact List.map_fst_zip hlength

/-- Each field of the model is one of its record. -/
theorem contains_modelRecord_iff : (modelRecord ns m).Contains r ↔
    ∃ f ∈ m.fields, (ns.typeExpr f.cyclic f.type).Contains r.name := by
  rw [← map_field_namedFields m]
  simp [Record.Contains, modelRecord, NamedField.recordField, NamedField.type]

end Source

namespace TypeTable

open Source (TypeNames ContainedIn modelRecord clientRecord)

variable {t : TypeTable} {c : Client} {m m' : Model} {r s : Source.Record}

/-- The identifiers in the source of the table's models. -/
def typeNames (t : TypeTable) (c : Client) : TypeNames := .ofModels t.declarations c

/-- The records in the source of the table's models. -/
def records (t : TypeTable) (c : Client) : List Source.Record :=
  Source.records (t.declarations.flatMap (Source.modelItems (t.typeNames c)))

theorem mem_records : r ∈ t.records c ↔ ∃ m ∈ t.declarations, r = modelRecord (t.typeNames c) m :=
  Source.mem_records_flatMap

theorem ofRecord_of_mem (hm : m ∈ t.declarations) :
    TypeNames.OfRecord ((t.typeNames c).model m.name) :=
  TypeNames.ofRecord_model (List.mem_map_of_mem hm)

/-- A record contains another one where a field that is not cyclic holds its model. -/
theorem contains_iff (h : t.Closed) (hm : m ∈ t.declarations) (hm' : m' ∈ t.declarations) :
    (modelRecord (t.typeNames c) m).Contains (modelRecord (t.typeNames c) m') ↔
      ∃ f ∈ m.fields, f.cyclic = false ∧ f.type.Holds m'.name := by
  rw [Source.contains_modelRecord_iff]
  refine exists_congr fun f => and_congr_right fun hf => ?_
  have hclosed := closed_of_mem_declarations h hm hf
  refine ((ofRecord_of_mem hm').contains_typeExpr_iff hclosed.nullFree).trans
    (and_congr_right fun _ => ⟨?_, fun hholds => ⟨_, hholds, rfl⟩⟩)
  -- the field holds a model of the table, so that the identifier tells which one
  rintro ⟨name, hholds, heq⟩
  have hname : m'.name = name := TypeNames.model_injective
    (List.mem_map_of_mem hm') (hclosed.mentions name hholds.mentions) heq
  rwa [hname]

theorem holds_of_containedIn (h : t.Closed) (hrs : ContainedIn (t.records c) r s) :
    ∃ m ∈ t.declarations, ∃ m' ∈ t.declarations, r = modelRecord (t.typeNames c) m ∧
      s = modelRecord (t.typeNames c) m' ∧ t.Holds m.name m'.name ∧
      ¬ ReflTransGen t.Holds m'.name m.name := by
  obtain ⟨hr, hs, hcontains⟩ := hrs
  obtain ⟨m, hm, rfl⟩ := mem_records.1 hr
  obtain ⟨m', hm', rfl⟩ := mem_records.1 hs
  obtain ⟨f, hf, hcyclic, hholds⟩ := (contains_iff h hm hm').1 hcontains
  refine ⟨m, hm, m', hm', rfl, rfl, holds_of_mem_declarations hm hf hholds, fun hback => ?_⟩
  have hcyclic' : f.cyclic = true := (cyclic_iff hm hf).2 ⟨_, hholds, hback⟩
  exact absurd (hcyclic.symm.trans hcyclic') (by decide)

/-- Containment leads along held models. -/
theorem holds_of_way (h : t.Closed) (hway : ReflTransGen (ContainedIn (t.records c)) r s)
    (hm : m ∈ t.declarations) (hm' : m' ∈ t.declarations) (hr : r = modelRecord (t.typeNames c) m)
    (hs : s = modelRecord (t.typeNames c) m') : ReflTransGen t.Holds m.name m'.name := by
  have hname {a b : Model} (ha : a ∈ t.declarations) (hb : b ∈ t.declarations)
      (hab : modelRecord (t.typeNames c) a = modelRecord (t.typeNames c) b) : a.name = b.name :=
    TypeNames.model_injective (List.mem_map_of_mem ha) (List.mem_map_of_mem hb)
      (congrArg Source.Record.name hab)
  induction hway using ReflTransGen.head_induction_on generalizing m with
  | refl =>
    rw [hname hm hm' (hr.symm.trans hs)]
  | head hrx _ ih =>
    obtain ⟨a, ha, x, hx, ha', hx', hholds, -⟩ := holds_of_containedIn h hrx
    rw [hname hm ha (hr.symm.trans ha')]
    exact .head hholds (ih hx hx')

theorem not_contains_of_client (hr : r ∈ t.records c) :
    ¬ (clientRecord (t.typeNames c)).Contains r := by
  obtain ⟨m, hm, rfl⟩ := mem_records.1 hr
  rintro ⟨f, hf, hcontains⟩
  -- a client has an endpoint and a transport
  obtain ⟨path, hpath, htype⟩ : ∃ path ∈ Source.Support.names, f.type = .plain path := by
    simp only [clientRecord, List.mem_cons, List.not_mem_nil, or_false] at hf
    rcases hf with rfl | rfl
    · exact ⟨"String", by decide, rfl⟩
    · exact ⟨"T", by decide, rfl⟩
  rw [htype, Source.TypeExpr.contains_plain_iff] at hcontains
  exact (ofRecord_of_mem hm).ne_of_mem hpath hcontains

/-- The fields are cyclic that lead back to their model. All other fields that hold a model contain
its record, and these alone, so that no record is a part of itself. What is resolved is closed. -/
theorem records_finite (t : TypeTable) :
    (∀ m ∈ t.declarations, ∀ f ∈ m.fields, f.cyclic = true ↔
      ∃ target, f.type.Holds target ∧ ReflTransGen t.Holds target m.name) ∧
    (t.Closed → ∀ c : Client,
      (∀ m ∈ t.declarations, ∀ m' ∈ t.declarations,
        ((modelRecord (t.typeNames c) m).Contains (modelRecord (t.typeNames c) m') ↔
          ∃ f ∈ m.fields, f.cyclic = false ∧ f.type.Holds m'.name)) ∧
      (∀ r, ¬ TransGen (ContainedIn (t.records c)) r r) ∧
      ∀ r ∈ t.records c, ¬ (clientRecord (t.typeNames c)).Contains r) ∧
    ∀ d, resolve d = .ok t → t.Closed := by
  refine ⟨fun m hm f hf => cyclic_iff hm hf, fun h c => ⟨?_, ?_, ?_⟩, fun d => closed_of_resolve⟩
  · exact fun m hm m' hm' => contains_iff h hm hm'
  · intro r hcycle
    obtain ⟨s, hrs, hway⟩ := TransGen.head'_iff.1 hcycle
    obtain ⟨m, hm, m', hm', hr, hs, -, hback⟩ := holds_of_containedIn h hrs
    exact hback (holds_of_way h hway hm' hm hs hr)
  · exact fun r => not_contains_of_client

/-- A book with pages; a page has the next one, notes and the book. -/
def book : Schema.Document :=
  let property (name : String) (type : Schema.TypeRef) : Schema.Property :=
    { name, type, required := true, nullable := false, description := none }
  let definition (name : String) (properties : List Schema.Property) :=
    (name, { name, description := none, bases := [], properties : Schema.Definition })
  { definitions := .ofList [
      definition "Book" [property "pages" (.array (.reference "Page"))],
      definition "Page" [property "next" (.reference "Page"), property "note" (.reference "Note"),
        property "book" (.reference "Book")],
      definition "Note" [property "page" (.reference "Page")]]
    aliases := ∅
    operations := []
    baseEndpoint := none
    title := none }

/-- Pages and notes lead back to themselves. The book does not, since it lists its pages. -/
theorem book_finite : ∃ t, resolve book = .ok t ∧ t.Closed ∧
    t.declarations.map (fun m => (m.name, m.fields.map (·.cyclic))) =
      [("Book", [false]), ("Page", [true, true, false]), ("Note", [true])] ∧
    ∀ c r, ¬ TransGen (ContainedIn (t.records c)) r r := by
  have hresolve : (resolve book).map (fun t => t.declarations.map fun m =>
      (m.name, m.fields.map (·.cyclic))) =
      .ok [("Book", [false]), ("Page", [true, true, false]), ("Note", [true])] := by
    decide +kernel
  obtain ⟨t, ht, hcyclic⟩ := map_eq_ok_iff.1 hresolve
  obtain ⟨-, hfinite, hclosed⟩ := records_finite t
  have hclosed := hclosed book ht
  exact ⟨t, ht, hclosed, hcyclic, fun c => (hfinite hclosed c).2.1⟩

end TypeTable

end TypedClient
