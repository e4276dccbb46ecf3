import TypedClient.Proofs.Conversion.Catalog
import TypedClient.Proofs.Properties
import TypedClient.Swagger.Conversion

/-!
# What Swagger 2.0 schemas become

An object schema becomes a definition that has its own properties and those of the inline parts of
its `allOf`, and that extends what the other parts refer to. Types that are converted on the way are
hoisted and leave the rest of the catalog alone.
-/

namespace TypedClient.Swagger

open TypedClient.Schema (Adds Catalog Conversion Converted Definition Property ReferenceKind TypeRef
  declareProperty)
open TypedClient.Schema.Conversion (Yields Hoists)

variable {s part : Schema} {name key owner place : String} {l : Location} {required : List String}
  {properties : List (String × Schema)} {declared : List Property} {parts : List Schema}

/-! ## Definitions -/

/-- A type is made of the schema, wherever it is written. -/
def HasType (s : Schema) : Prop := ∀ place l, Hoists (typeOf s place l)

/-- The names of the properties that are written in the schema, with their nullable markers. -/
def Schema.marked (s : Schema) : List (String × Bool) :=
  s.properties.map fun e => (e.1, e.2.nullable)

/-- All properties are declared in their order. -/
theorem propertiesOf_yields (h : ∀ e ∈ properties, HasType e.2) :
    Yields (propertiesOf owner required l properties declared)
      (Adds required (properties.map fun e => (e.1, e.2.nullable)) declared) := by
  induction properties generalizing declared with
  | nil =>
    rw [propertiesOf]
    exact .pure (.refl required declared)
  | cons e properties ih =>
    obtain ⟨hs, hrest⟩ := List.forall_mem_cons.1 h
    rw [propertiesOf]
    refine (hs _ _).yields_bind fun type => (ih hrest).mono fun made hmade => ?_
    exact (Adds.declare rfl).trans hmade

/-- Of the parts, the inline ones declare properties. -/
theorem partPropertiesOf_yields
    (h : ∀ part ∈ parts, ∀ e ∈ part.properties, HasType e.2) :
    Yields (partPropertiesOf owner required l parts declared)
      (Adds required ((parts.filter (·.reference.isNone)).flatMap (·.marked)) declared) := by
  induction parts generalizing declared with
  | nil =>
    rw [partPropertiesOf]
    exact .pure (.refl required declared)
  | cons part parts ih =>
    obtain ⟨hpart, hrest⟩ := List.forall_mem_cons.1 h
    rw [partPropertiesOf]
    split
    · rename_i hreference
      rw [pure_bind, List.filter_cons_of_neg (by simpa [Option.isSome_iff_ne_none] using hreference)]
      exact ih hrest
    · rename_i hreference
      rw [List.filter_cons_of_pos (by simpa using hreference), List.flatMap_cons]
      apply (propertiesOf_yields hpart).bind
      exact fun own hown => (ih hrest).mono fun made hmade => hown.trans hmade

theorem mem_of_forall₂_target {α : Type} {f : α → String} {rs : List α} {bases : List String}
    (h : List.Forall₂ (fun a base => ReferenceKind.schema.target? (f a) = some base) rs bases)
    (base : String) :
    base ∈ bases ↔ ∃ a ∈ rs, ReferenceKind.schema.target? (f a) = some base := by
  induction h with
  | nil => simp
  | cons hab _ ih => simp [ih, hab, eq_comm]

/-- The bases are what the other parts refer to. -/
theorem bases_yields (s : Schema) (l : Location) :
    Yields (s.bases l) fun bases => ∀ base, base ∈ bases ↔
      ∃ part ∈ s.allOf, ∃ r, part.reference = some r ∧
        ReferenceKind.schema.target? r = some base := by
  have htargets : Yields (s.bases l) (List.Forall₂
      (fun e base => ReferenceKind.schema.target? e.1 = some base)
      (s.allOf.zipIdx.filterMap fun p => p.1.reference.map (·, p.2))) :=
    .mapM fun e _ => .target .schema e.1 ((l.key "allOf").item e.2)
  apply htargets.mono
  intro bases hbases base
  rw [mem_of_forall₂_target hbases]
  constructor
  · rintro ⟨e, he, hbase⟩
    obtain ⟨⟨part, i⟩, hpart, hr⟩ := List.mem_filterMap.1 he
    obtain ⟨r, hreference, rfl⟩ := Option.map_eq_some_iff.1 hr
    exact ⟨part, List.fst_mem_of_mem_zipIdx hpart, r, hreference, hbase⟩
  · rintro ⟨part, hpart, r, hreference, hbase⟩
    obtain ⟨i, hi⟩ := List.mem_iff_getElem?.1 hpart
    refine ⟨(r, i), List.mem_filterMap.2 ⟨(part, i), List.mk_mem_zipIdx_iff_getElem?.2 hi, ?_⟩, hbase⟩
    dsimp only
    rw [hreference]
    rfl

/-- What an object schema is made of: itself and the parts of its `allOf`. -/
def Schema.Takes (s x : Schema) : Prop := x = s ∨ x ∈ s.allOf

/-- The names of the properties that are written in the schema. -/
def Schema.propertyNames (s : Schema) : List String := s.properties.map Prod.fst

def Schema.Makes (s : Schema) (d : Definition) : Prop :=
  d.MadeOf s.Takes (·.reference) (·.propertyNames)

/-- The schema and the parts of its `allOf` that are written inline, in their order. -/
def Schema.inlineParts (s : Schema) : List Schema := s :: s.allOf.filter (·.reference.isNone)

theorem Schema.mem_inlineParts_iff (hs : s.reference = none) :
    part ∈ s.inlineParts ↔ s.Takes part ∧ part.reference = none := by
  simp only [inlineParts, List.mem_cons, List.mem_filter, Option.isNone_iff_eq_none, Takes,
    or_and_right]
  exact or_congr_left (iff_self_and.2 fun h => h ▸ hs)

theorem Schema.requiredNames_eq (s : Schema) :
    s.requiredNames = s.inlineParts.flatMap (·.required) := by
  rw [requiredNames, inlineParts, List.flatMap_cons]

/-- The properties of the definition are declared by the inline parts. -/
def Schema.Marks (s : Schema) (d : Definition) : Prop :=
  Adds (s.inlineParts.flatMap (·.required)) (s.inlineParts.flatMap (·.marked)) [] d.properties

theorem objectOf_yields (hs : s.reference = none) (hown : ∀ e ∈ s.properties, HasType e.2)
    (hparts : ∀ part ∈ s.allOf, ∀ e ∈ part.properties, HasType e.2) :
    Yields (objectOf name s l) fun d => d.name = name ∧ s.Makes d ∧ s.Marks d := by
  rw [objectOf]
  apply (bases_yields s l).bind
  intro bases hbases
  apply (propertiesOf_yields hown).bind
  intro own hown
  apply (partPropertiesOf_yields hparts).bind
  intro properties hproperties
  have hadds := hown.trans hproperties
  refine .pure ⟨rfl, ⟨fun base => ?_, fun key => ?_⟩, ?_⟩
  · simp [hbases, Schema.Takes, or_and_right, exists_or, hs]
  · rw [hadds.mem_names]
    simp [← and_assoc, ← Schema.mem_inlineParts_iff hs, Schema.inlineParts, Schema.marked,
      Schema.propertyNames]
  · rw [Schema.requiredNames_eq] at hadds
    exact hadds

/-! ## Types -/

theorem hoists_hoisted (hs : s.reference = none) (hown : ∀ e ∈ s.properties, HasType e.2)
    (hparts : ∀ part ∈ s.allOf, ∀ e ∈ part.properties, HasType e.2) :
    Hoists (hoisted s place l) := by
  rw [hoisted]
  exact .claimed fun name => (objectOf_yields hs hown hparts).mono fun d hd => hd.1

/-- What a schema without a type of its own, or of objects, is when it is no definition. -/
theorem hoists_values (h : ∀ values, s.additional = .schema values → HasType values) :
    Hoists (match _h : s.additional with
      | .schema values =>
        TypeRef.map <$> typeOf values (place ++ "Value") (l.key "additionalProperties")
      | .free | .unsaid => pure .any) := by
  split
  · rename_i values hvalues
    exact .map (h values hvalues _ _)
  · exact .pure _
  · exact .pure _

theorem sizeOf_property {e : String × Schema} (he : e ∈ s.properties) : sizeOf e.2 < sizeOf s := by
  have := List.sizeOf_lt_of_mem he
  have := s.sizeOf_properties
  have : sizeOf e.2 < sizeOf e := by
    cases e
    simp only [Prod.mk.sizeOf_spec]
    omega
  omega

theorem sizeOf_part (hpart : part ∈ s.allOf) : sizeOf part < sizeOf s :=
  Nat.lt_trans (List.sizeOf_lt_of_mem hpart) s.sizeOf_allOf

theorem hasType (s : Schema) : HasType s := by
  -- all that a type is made from is smaller than the schema
  have hown : ∀ e ∈ s.properties, HasType e.2 := fun e he => hasType e.2
  have hparts : ∀ part ∈ s.allOf, ∀ e ∈ part.properties, HasType e.2 :=
    fun part hpart e he => hasType e.2
  have hvalues : ∀ values, s.additional = .schema values → HasType values :=
    fun values hvalues => hasType values
  have hitems : ∀ items, s.items = some items → HasType items :=
    fun items hitems => hasType items
  intro place l
  rw [typeOf]
  split
  · exact .map (.target _ _ _)
  · rename_i hs
    split
    · split
      · exact .map (.target _ _ _)
      · exact hoists_hoisted hs hown hparts
    · split
      · exact .pure _
      · split
        · split
          · rename_i items h
            exact .map (hitems items h _ _)
          · exact .pure _
        · split
          · exact hoists_hoisted hs hown hparts
          · exact hoists_values hvalues
        · split
          · exact hoists_hoisted hs hown hparts
          · exact hoists_values hvalues
        · exact .pure _
termination_by sizeOf s
decreasing_by
  · exact sizeOf_property he
  · exact Nat.lt_trans (sizeOf_property he) (sizeOf_part hpart)
  · exact Schema.sizeOf_additional hvalues
  · exact Schema.sizeOf_items hitems

/-! ## Operations -/

theorem hoists_simpleType (p : Parameter) (l : Location) : Hoists (p.simpleType l) := by
  unfold Parameter.simpleType
  split
  · split
    · exact .map (hasType _ _ _)
    · exact .pure _
  · exact .pure _
  · exact .pure _

/-- What a part of an operation stands for: itself, or the shared one that it refers to. -/
inductive Reaches {α : Type} (reference : α → Option String) (kind : ReferenceKind)
    (shared : List (String × α)) : α → α → Prop where
  | itself {x : α} (hreference : reference x = none) : Reaches reference kind shared x x
  | shared {x y : α} {r name : String} (hreference : reference x = some r)
      (htarget : kind.target? r = some name) (hlookup : shared.lookup name = some y) :
      Reaches reference kind shared x y

theorem wp_parameter (d : Document) (p : Parameter) (l : Location) (c : Catalog) :
    wp (d.parameter p l) c
      (fun p' c' => c' = c ∧ Reaches Parameter.reference .parameter d.parameters p p')
      fun _ _ => True := by
  unfold Document.parameter
  split
  · exact ⟨rfl, .itself (by assumption)⟩
  · rename_i r hreference
    refine wp_bind.2 ((Conversion.wp_target .parameter r l c).imp fun name c' hname => ?_)
    obtain ⟨rfl, htarget⟩ := hname
    split
    · exact ⟨rfl, .shared hreference htarget (by assumption)⟩
    · trivial

theorem wp_response (d : Document) (r : Response) (l : Location) (c : Catalog) :
    wp (d.response r l) c
      (fun r' c' => c' = c ∧ Reaches Response.reference .response d.responses r r')
      fun _ _ => True := by
  unfold Document.response
  split
  · exact ⟨rfl, .itself (by assumption)⟩
  · rename_i target hreference
    refine wp_bind.2 ((Conversion.wp_target .response target l c).imp fun name c' hname => ?_)
    obtain ⟨rfl, htarget⟩ := hname
    split
    · exact ⟨rfl, .shared hreference htarget (by assumption)⟩
    · trivial

theorem hoists_parameter (d : Document) (p : Parameter) (l : Location) :
    Hoists (d.parameter p l) :=
  (Yields.of_unchanged (wp_parameter d p l)).hoists

theorem hoists_response (d : Document) (r : Response) (l : Location) :
    Hoists (d.response r l) :=
  (Yields.of_unchanged (wp_response d r l)).hoists

theorem hoists_convertParameter (d : Document) (method : String) (p : Parameter) (l : Location) :
    Hoists (d.convertParameter method p l) := by
  unfold Document.convertParameter
  refine .bind (hoists_parameter d p l) fun p => ?_
  split
  · dsimp only
    split
    · split
      · exact .bind (hasType _ _ _) fun type => .pure _
      · exact .bind (.throw _) fun type => .pure _
      · exact .bind (hoists_simpleType _ _) fun type => .pure _
    · exact .throw _
  · exact .throw _

theorem hoists_returned (method : String) (responses : List (String × Response)) (l : Location) :
    Hoists (returned method responses l) := by
  unfold returned
  dsimp only
  split
  · split
    · split
      · exact .bind (hasType _ _ _) fun type => .pure _
      · exact .pure _
    · exact .pure _
  · exact .pure _

theorem hoists_convertParameters (d : Document) (method : String) (ps : List Parameter)
    (l : Location) : Hoists (d.convertParameters method ps l) :=
  .mapM fun _ _ => hoists_convertParameter _ _ _ _

theorem convertOperation_yields (d : Document) (verb : Schema.Verb) (path : String)
    (shared : List Parameter) (o : Operation) (l : Location) :
    Yields (d.convertOperation verb path shared o l) (·.call = (path, verb)) := by
  have hresponses : Hoists (d.convertResponses o.responses l) :=
    .mapM fun _ _ => .map (hoists_response _ _ _)
  exact (hoists_convertParameters _ _ _ _).yields_bind fun inherited =>
    (hoists_convertParameters _ _ _ _).yields_bind fun own => hresponses.yields_bind fun responses =>
      (hoists_returned _ _ _).yields_bind fun response => .pure rfl

theorem decodeAt_yields {α : Type} (decoder : Decoder α) (v : Data) (l : Location) :
    Yields (decodeAt decoder v l) (decoder v = some ·) := by
  unfold decodeAt
  split
  · exact .pure (by assumption)
  · exact .throw _

/-- A path item has an operation for each key that reads as a verb, in the order of the keys. -/
theorem convertPath_yields (d : Document) (path : String) (item : OrderedMap Data) :
    Yields (d.convertPath path item) fun made =>
      made.map (·.call) = (item.names.filterMap Schema.Verb.ofKey?).map (path, ·) := by
  have hverbs : (item.names.filterMap Schema.Verb.ofKey?).map (path, ·) =
      (item.entries.filterMap fun e => (Schema.Verb.ofKey? e.1).map (e.1, ·, e.2)).map
        fun e => (path, e.2.1) := by
    rw [OrderedMap.names, List.filterMap_map, List.map_filterMap, List.map_filterMap]
    simp [Function.comp_def]
  have hoperations (l : Location) (shared : List Parameter)
      (verbs : List (String × Schema.Verb × Data)) :
      Yields (verbs.mapM fun e => do
        let o ← decodeAt Decoder.operation e.2.2 (l.key e.1)
        d.convertOperation e.2.1 path shared o (l.key e.1))
        fun made => made.map (·.call) = verbs.map fun e => (path, e.2.1) :=
    .mapM_map fun _ _ => (decodeAt_yields _ _ _).bind fun o _ => convertOperation_yields _ _ _ _ _ _
  rw [hverbs]
  unfold Document.convertPath
  dsimp only
  split
  · exact .throw _
  · split
    · exact (decodeAt_yields _ _ _).bind fun shared _ => hoperations _ _ _
    · exact (Hoists.pure _).yields_bind fun shared => hoperations _ _ _

/-- The paths and verbs of the operations of one path. -/
def callsAt (e : String × Data) : List (String × Schema.Verb) :=
  (((Decoder.pathItem e.2).getD ∅).names.filterMap Schema.Verb.ofKey?).map (e.1, ·)

/-- The paths and verbs of the operations, path by path. -/
def Document.calls (d : Document) : List (String × Schema.Verb) :=
  (d.paths.entries.filter fun e => !e.1.startsWith "x-").flatMap callsAt

theorem convertPaths_yields (d : Document) :
    Yields d.convertPaths fun made => made.map (·.call) = d.calls := by
  unfold Document.convertPaths Document.calls
  dsimp only
  refine (Yields.mapM_map (g := callsAt) (k := List.map (·.call)) fun e _ => ?_).bind
    fun made hmade => .pure ?_
  · refine (decodeAt_yields _ _ _).bind fun item hitem => ?_
    rw [callsAt, hitem]
    exact convertPath_yields d e.1 item
  · rw [List.map_flatten, hmade, List.flatMap]

/-! ## Documents -/

theorem Schema.reference_of_isObject (h : s.isObject = true) : s.reference = none := by
  rw [Schema.isObject] at h
  split at h
  · cases h
  · rename_i hreference
    simpa using hreference

theorem convertDefinition_spec {schemas : OrderedMap Schema} {done : List (String × Schema)}
    {c : Catalog} (hmem : (name, s) ∈ schemas.entries)
    (h : Converted schemas (·.isObject = true) (fun s d => s.Makes d ∧ s.Marks d) done c) :
    wp (convertDefinition name s) c
      (fun _ => Converted schemas (·.isObject = true) (fun s d => s.Makes d ∧ s.Marks d)
        (done ++ [(name, s)]))
      (fun _ _ => True) := by
  unfold convertDefinition
  dsimp only
  split
  · rename_i hobject
    rw [wp_bind]
    refine (objectOf_yields (Schema.reference_of_isObject hobject) (fun e _ => hasType e.2)
      (fun part _ e _ => hasType e.2) c).mono (fun d c' hd => ?_) fun _ _ h => h
    exact (h.hoists hd.1).declare hmem hobject hd.2.2 hd.2.1
  · rename_i hobject
    rw [wp_bind]
    refine (hasType s name _ c).mono (fun type c' htype => ?_) fun _ _ h => h
    exact (h.hoists htype.1).addAlias hmem hobject type

/-- In the end all named schemas are converted, and the operations are listed. -/
theorem convert_spec (d : Document) :
    wp d.convert (Catalog.withNames d.definitions.names)
      (fun operations c => Converted d.definitions (·.isObject = true)
        (fun s d => s.Makes d ∧ s.Marks d) d.definitions.entries c ∧
          operations.map (·.call) = d.calls)
      (fun _ _ => True) := by
  have hschemas : wp (d.definitions.entries.forM fun e => convertDefinition e.1 e.2)
      (Catalog.withNames d.definitions.names)
      (fun _ => Converted d.definitions (·.isObject = true) (fun s d => s.Makes d ∧ s.Marks d)
        d.definitions.entries)
      (fun _ _ => True) :=
    wp_forM (.withNames _ _) fun done e c he hc => convertDefinition_spec he hc
  rw [Document.convert, wp_bind]
  refine hschemas.mono (fun _ c hc => ?_) fun _ _ h => h
  exact (convertPaths_yields d c).mono (fun _ c' h => ⟨hc.hoists h.1, h.2⟩) fun _ _ h => h

end TypedClient.Swagger
