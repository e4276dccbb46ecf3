import TypedClient.Proofs.JsonText
import TypedClient.Proofs.Shared.Conversion
import TypedClient.Proofs.Shared.Reading

/-!
# Documents of shared schemas

A Swagger 2.0 document and an OpenAPI 3 document that hold the same regular schemas have one table.
-/

namespace TypedClient

open Schema (Catalog Conversion)

namespace Shared

/-! ## Documents -/

/-- The schemas that a document without paths holds, if they are written in shared keywords. -/
def held (dialect : Dialect) (d : Data) : Option (List (String × Schema)) := do
  let fs ← Decoder.fields true d
  let .mapping [] ← fs.lookup "paths" | none
  match dialect with
  | .swagger => Schema.decodeDict (← fs.lookup "definitions")
  | .openApi =>
    let components ← Decoder.fields true (← fs.lookup "components")
    Schema.decodeDict (← components.lookup "schemas")

/-- A text is a document of the dialect that has no paths and holds `schemas`. -/
structure Holds (text : String) (dialect : Dialect) (schemas : List (String × Schema)) : Prop where
  reads : ∃ d, readDocument text = .ok d ∧ Dialect.detect d = .ok dialect ∧
    held dialect d = some schemas

variable {text text' : String} {schemas : List (String × Schema)} {described : Bool}
  {d d' : TypedClient.Schema.Document}

section Reading

variable {α : Type} {item : Decoder α} {f : Schema → α}
  (hitem : ∀ d s, Schema.decode d = some s → item d = some (f s))

include hitem

theorem fields_of_decodeEntries {es : List (Data × Data)}
    (h : Schema.decodeEntries es = some schemas) :
    ∃ fs, Data.textFields? es = some fs ∧
      fs.mapM (fun e => (item e.2).map (e.1, ·)) = some (schemas.map fun e => (e.1, f e.2)) := by
  induction es generalizing schemas with
  | nil =>
    rw [Schema.decodeEntries] at h
    cases h
    exact ⟨[], rfl, rfl⟩
  | cons e es ih =>
    rw [Schema.decodeEntries] at h
    simp only [Option.bind_eq_bind, Option.bind_eq_some_iff] at h
    obtain ⟨name, hname, s, hs, ss, hss, h⟩ := h
    cases h
    obtain ⟨fs, hfs, hitems⟩ := ih hss
    have hfs : es.mapM (fun e => e.1.keyText?.map (·, e.2)) = some fs := hfs
    refine ⟨(name, e.2) :: fs, ?_, ?_⟩
    · rw [Data.textFields?, List.mapM_cons, hname, hfs]
      rfl
    · rw [List.mapM_cons, hitem _ _ hs, hitems]
      rfl

theorem dict_of_decodeDict {v : Data} (h : Schema.decodeDict v = some schemas) :
    ∃ m, Decoder.dict true item v = some m ∧ m.entries = schemas.map fun e => (e.1, f e.2) := by
  unfold Schema.decodeDict at h
  split at h
  · obtain ⟨names, hnames, h⟩ := Option.bind_eq_some_iff.1 h
    obtain ⟨fs, hfs, hitems⟩ := fields_of_decodeEntries hitem h
    refine ⟨_, ?_, OrderedMap.entries_ofList ?_⟩
    · rw [Decoder.dict, Decoder.fields, hfs, Option.bind_some, hitems]
      rfl
    · rw [List.map_map]
      exact Schema.nodup_names hnames h
  · cases h

end Reading

/-- The fields of a document that holds schemas. -/
theorem Holds.source {dialect : Dialect} (h : Holds text dialect schemas) {src : Source}
    (hsrc : Source.read text = .ok src) : ∃ d fs, Source.ofData d = .ok src ∧
      Dialect.detect d = .ok dialect ∧ held dialect d = some schemas ∧
      Decoder.fields true d = some fs ∧ fs.lookup "paths" = some (.mapping []) := by
  obtain ⟨d, hread, hdetect, hheld⟩ := h.reads
  rw [Source.read, hread] at hsrc
  have hfields := hheld
  simp only [held, Option.bind_eq_bind, Option.bind_eq_some_iff] at hfields
  obtain ⟨fs, hfs, v, hv, hrest⟩ := hfields
  refine ⟨d, fs, hsrc, hdetect, hheld, hfs, ?_⟩
  split at hrest
  · exact hv
  · cases hrest

theorem swagger_source (h : Holds text .swagger schemas) {src : Source}
    (hsrc : Source.read text = .ok src) : ∃ doc, src = .swagger doc ∧ doc.paths = ∅ ∧
      doc.definitions.entries = schemas.map fun e => (e.1, e.2.swagger) := by
  obtain ⟨d, fs, hdata, hdetect, hheld, hfs, hpaths⟩ := h.source hsrc
  simp only [held, hfs, hpaths, Option.bind_eq_bind, Option.bind_some,
    Option.bind_eq_some_iff] at hheld
  obtain ⟨v, hv, hschemas⟩ := hheld
  obtain ⟨m, hm, hentries⟩ := dict_of_decodeDict (Schema.decode_swagger true) hschemas
  rw [Source.ofData, hdetect] at hdata
  dsimp only at hdata
  split at hdata
  · rename_i doc hdoc
    cases hdata
    refine ⟨doc, rfl, ?_⟩
    simp only [Swagger.Decoder.document, hfs, Option.bind_eq_bind, Option.bind_some,
      Option.bind_eq_some_iff] at hdoc
    obtain ⟨_, -, _, -, _, -, _, -, _, -, _, -, paths, hpaths', definitions, hdefinitions, _, -, _,
      -, hdoc⟩ := hdoc
    cases hdoc
    rw [Fields.get, hpaths] at hpaths'
    rw [Fields.get, hv] at hdefinitions
    cases hpaths'
    cases hm.symm.trans hdefinitions
    exact ⟨rfl, hentries⟩
  · cases hdata

theorem components_schemas {v w : Data} {fs : Fields} {c : OpenApi.Components}
    (hfs : Decoder.fields true v = some fs) (hw : fs.lookup "schemas" = some w)
    (hschemas : Schema.decodeDict w = some schemas) (h : OpenApi.Decoder.components v = some c) :
    c.schemas.entries = schemas.map fun e => (e.1, e.2.openApi) := by
  have hitem (d : Data) (s : Schema) (hs : Schema.decode d = some s) :
      OpenApi.OrReference.decode OpenApi.Schema.decode d = some s.openApi := by
    rw [← Schema.decode_openApi d hs, OpenApi.Schema.decodeOrReference]
    rfl
  obtain ⟨m, hm, hentries⟩ := dict_of_decodeDict hitem hschemas
  simp only [OpenApi.Decoder.components, hfs, Option.bind_eq_bind, Option.bind_some] at h
  split at h
  · cases h
  · simp only [Option.bind_eq_some_iff] at h
    obtain ⟨named, hnamed, _, -, _, -, _, -, h⟩ := h
    cases h
    rw [OpenApi.Decoder.named, Fields.get, hw] at hnamed
    cases hm.symm.trans hnamed
    exact hentries

theorem openApi_source (h : Holds text .openApi schemas) {src : Source}
    (hsrc : Source.read text = .ok src) : ∃ doc, src = .openApi doc ∧ doc.paths = ∅ ∧
      doc.components.schemas.entries = schemas.map fun e => (e.1, e.2.openApi) := by
  obtain ⟨d, fs, hdata, hdetect, hheld, hfs, hpaths⟩ := h.source hsrc
  simp only [held, hfs, hpaths, Option.bind_eq_bind, Option.bind_some,
    Option.bind_eq_some_iff] at hheld
  obtain ⟨v, hv, components, hcomponents, w, hw, hschemas⟩ := hheld
  rw [Source.ofData, hdetect] at hdata
  dsimp only at hdata
  split at hdata
  · rename_i doc hdoc
    cases hdata
    refine ⟨doc, rfl, ?_⟩
    simp only [OpenApi.Decoder.document, hfs, Option.bind_eq_bind, Option.bind_some] at hdoc
    split at hdoc
    · cases hdoc
    · simp only [Option.bind_eq_some_iff] at hdoc
      obtain ⟨_, -, _, -, paths, hpaths', found, hfound, hdoc⟩ := hdoc
      cases hdoc
      rw [Fields.need, hpaths] at hpaths'
      cases hpaths'
      refine ⟨rfl, ?_⟩
      rw [Fields.get?, Fields.get, hv] at hfound
      cases v with
      | mapping es =>
        have hfound : (OpenApi.Decoder.components (.mapping es)).map some = some found := hfound
        obtain ⟨c, hc, rfl⟩ := Option.map_eq_some_iff.1 hfound
        exact components_schemas hcomponents hw hschemas hc
      | null =>
        cases hcomponents
        cases hw
      | _ => cases hcomponents
  · cases hdata

/-! ## Conversion -/

theorem convert_agrees {doc : Swagger.Document} {doc' : OpenApi.Document}
    (hpaths : doc.paths = ∅) (hpaths' : doc'.paths = ∅)
    (hschemas : doc.definitions.entries = schemas.map fun e => (e.1, e.2.swagger))
    (hschemas' : doc'.components.schemas.entries = schemas.map fun e => (e.1, e.2.openApi))
    (h : ∀ e ∈ schemas, Regular described false e.2) :
    Agree described (fun operations operations' => operations' = operations) doc.convert
      doc'.convert := by
  have hentries : List.Forall₂ (fun e e' => ∃ name s, Regular described false s ∧
      e = (name, s.swagger) ∧ e' = (name, s.openApi)) doc.definitions.entries
      doc'.components.schemas.entries := by
    rw [hschemas, hschemas', List.forall₂_map_left_iff, List.forall₂_map_right_iff,
      List.forall₂_same]
    exact fun e he => ⟨e.1, e.2, h e he, rfl, rfl⟩
  have hoperations : doc.convertPaths = pure [] := by
    rw [Swagger.Document.convertPaths, hpaths]
    rfl
  rw [Swagger.Document.convert, OpenApi.Document.convert, hoperations, hpaths']
  refine (Lockstep.forM hentries ?_).bind fun _ _ _ => .pure rfl
  rintro _ _ ⟨name, s, hs, rfl, rfl⟩
  exact hs.converts name

/-- The documents that the texts declare have one plain form. -/
theorem exists_plain (hheld : Holds text .swagger schemas)
    (hheld' : Holds text' .openApi schemas) (h : ∀ e ∈ schemas, Regular described false e.2)
    (hload : load text = .ok d) (hload' : load text' = .ok d') :
    ∃ plain, d.HasPlain described plain ∧ d'.HasPlain described plain := by
  obtain ⟨src, hsrc, hdocument⟩ := bind_eq_ok_iff.1 hload
  obtain ⟨src', hsrc', hdocument'⟩ := bind_eq_ok_iff.1 hload'
  obtain ⟨doc, rfl, hpaths, hschemas⟩ := swagger_source hheld hsrc
  obtain ⟨doc', rfl, hpaths', hschemas'⟩ := openApi_source hheld' hsrc'
  have hnames : (Source.openApi doc').schemaNames = (Source.swagger doc).schemaNames := by
    simp [Source.schemaNames, OrderedMap.names, hschemas, hschemas']
  rw [Source.document] at hdocument hdocument'
  split at hdocument
  · cases hdocument
  · rename_i c hrun
    have hagrees := convert_agrees hpaths hpaths' hschemas hschemas' h
    obtain ⟨operations, c', hrun', rfl, hplain⟩ := hagrees.of_ok rfl hrun
    rw [Source.convert, hnames, Source.operations, hrun'] at hdocument'
    cases hdocument
    cases hdocument'
    refine ⟨{
      definitions := (c.plain described).declared ++ (c.plain described).hoisted
      aliases := (c.plain described).aliases
      operations
      baseEndpoint := none
      title := none }, ⟨?_, rfl, rfl⟩, ?_, ?_, rfl⟩
    · exact (OrderedMap.map_append _ _ _).symm
    · rw [← hplain]
      exact (OrderedMap.map_append _ _ _).symm
    · rw [← hplain]
      rfl

theorem plain_tables_agree (hheld : Holds text .swagger schemas)
    (hheld' : Holds text' .openApi schemas) (h : ∀ e ∈ schemas, Regular described false e.2)
    (hload : load text = .ok d) (hload' : load text' = .ok d') :
    (resolve d).map (TypeTable.plain described) = (resolve d').map (TypeTable.plain described) :=
  let ⟨_, hplain, hplain'⟩ := exists_plain hheld hheld' h hload hload'
  (resolve_plain hplain).symm.trans (resolve_plain hplain')

/-- Both dialects agree on regular schemas: of the documents that hold them both have a table or
both fail for the same reason, and the tables are the same but for the descriptions of fields. These
are the same as well unless one stands beside a reference. -/
theorem dialects_agree (hheld : Holds text .swagger schemas) (hheld' : Holds text' .openApi schemas)
    (h : ∀ e ∈ schemas, Regular false false e.2) (hload : load text = .ok d)
    (hload' : load text' = .ok d') :
    (resolve d).map (TypeTable.plain false) = (resolve d').map (TypeTable.plain false) ∧
      ((∀ e ∈ schemas, Regular true false e.2) → resolve d = resolve d') := by
  refine ⟨plain_tables_agree hheld hheld' h hload hload', fun hbare => ?_⟩
  have hall (x : Except Failure TypeTable) : x.map (TypeTable.plain true) = x := by
    cases x with
    | error e => rfl
    | ok t => exact congrArg Except.ok t.plain_true
  rw [← hall (resolve d), plain_tables_agree hheld hheld' hbare hload hload', hall]

/-! ## Pets of an age -/

open Json (record quote)

section Pets

variable (written : List (String × String)) (read : List (Data × Data)) (age : Schema)

/-- Pets that have an age of the given form. -/
def petSchemas : String :=
  record [("Pet", record [("properties", record [("age", record written)])])]

def swaggerPets : String :=
  record [("swagger", quote "2.0"), ("paths", record []), ("definitions", petSchemas written)]

def openApiPets : String :=
  record [("openapi", quote "3.0"), ("info", record [("title", quote ""), ("version", quote "")]),
    ("paths", record []), ("components", record [("schemas", petSchemas written)])]

/-- The data of the texts. -/
def petData : Data :=
  .mapping [(.text "Pet", .mapping [(.text "properties", .mapping [(.text "age", .mapping read)])])]

def swaggerPetData : Data :=
  .mapping [(.text "swagger", .text "2.0"), (.text "paths", .mapping []),
    (.text "definitions", petData read)]

def openApiPetData : Data :=
  .mapping [(.text "openapi", .text "3.0"),
    (.text "info", .mapping [(.text "title", .text ""), (.text "version", .text "")]),
    (.text "paths", .mapping []), (.text "components", .mapping [(.text "schemas", petData read)])]

/-- The schemas that the texts hold. -/
def pets : List (String × Schema) := [("Pet", { properties := some [("age", age)] })]

end Pets

/-- How texts with pets of an age are read. -/
structure ReadAs (written : List (String × String)) (read : List (Data × Data)) (age : Schema) :
    Prop where
  swagger : readDocument (swaggerPets written) = .ok (swaggerPetData read)
  openApi : readDocument (openApiPets written) = .ok (openApiPetData read)
  decoded : Schema.decode (.mapping read) = some age

def longWritten : List (String × String) := [("type", quote "integer"), ("format", quote "int64")]

def longData : List (Data × Data) :=
  [(.text "type", .text "integer"), (.text "format", .text "int64")]

def listedWritten : List (String × String) := [("type", quote "integer"), ("enum", "[1]")]

def listedData : List (Data × Data) :=
  [(.text "type", .text "integer"), (.text "enum", .list [.number (.int 1)])]

set_option maxRecDepth 4096 in
theorem read_long :
    ReadAs longWritten longData { type := some "integer", format := some "int64" } := by
  refine ⟨?_, ?_, by with_unfolding_all rfl⟩
  all_goals
    rw [readDocument_eq_documentData ?text]
    case text =>
      simp only [swaggerPets, openApiPets, petSchemas, longWritten, Json.toList_record,
        Json.toList_quote, List.map_cons, List.map_nil]
      rfl
    with_unfolding_all rfl

set_option maxRecDepth 4096 in
theorem read_listed :
    ReadAs listedWritten listedData { type := some "integer", values := some [.number (.int 1)] } := by
  refine ⟨?_, ?_, by with_unfolding_all rfl⟩
  all_goals
    rw [readDocument_eq_documentData ?text]
    case text =>
      simp only [swaggerPets, openApiPets, petSchemas, listedWritten, Json.toList_record,
        Json.toList_quote, List.map_cons, List.map_nil]
      rfl
    with_unfolding_all rfl

variable {written : List (String × String)} {read : List (Data × Data)} {age : Schema}

theorem ReadAs.held (h : ReadAs written read age) :
    Schema.decodeDict (petData read) = some (pets age) := by
  have hpet : Schema.decode (.mapping [(.text "properties",
      .mapping [(.text "age", .mapping read)])]) = some { properties := some [("age", age)] } := by
    simp [Schema.decode, Schema.ofEntries, Schema.withKeyword, Schema.decodeDict,
      Schema.decodeEntries, Schema.distinctKeys?, Data.keyText?, h.decoded]
  simp [petData, pets, Schema.decodeDict, Schema.decodeEntries, Schema.distinctKeys?, Data.keyText?,
    hpet]

theorem ReadAs.holds_swagger (h : ReadAs written read age) :
    Holds (swaggerPets written) .swagger (pets age) :=
  ⟨swaggerPetData read, h.swagger, by with_unfolding_all rfl, h.held⟩

theorem ReadAs.holds_openApi (h : ReadAs written read age) :
    Holds (openApiPets written) .openApi (pets age) :=
  ⟨openApiPetData read, h.openApi, by with_unfolding_all rfl, h.held⟩

theorem load_eq {text : String} {d : Data} (h : readDocument text = .ok d) :
    load text = (Source.ofData d).bind Source.document := by
  rw [load, Source.read, h]
  rfl

theorem regular_long : ∀ e ∈ pets { type := some "integer", format := some "int64" },
    Regular described false e.2 :=
  List.forall_mem_singleton.2 (.record rfl (.inl rfl) rfl (List.cons_ne_nil _ _)
    (List.forall_mem_singleton.2 fun _ => nofun) (List.forall_mem_singleton.2 (.integer nofun)))

/-- An age with a format is an integer in both dialects. -/
theorem long_ages_agree : ∃ d d' t, load (swaggerPets longWritten) = .ok d ∧
    load (openApiPets longWritten) = .ok d' ∧ resolve d = .ok t ∧ resolve d' = .ok t ∧
    t.models.names = ["Pet"] := by
  have hresolved : (((Source.ofData (swaggerPetData longData)).bind Source.document).bind
      resolve).map (·.models.names) = .ok ["Pet"] := by
    decide +kernel
  have hloaded' : (((Source.ofData (openApiPetData longData)).bind Source.document).map
      (·.definitions.names)) = .ok ["Pet"] := by
    decide +kernel
  rw [← load_eq read_long.swagger] at hresolved
  rw [← load_eq read_long.openApi] at hloaded'
  obtain ⟨t, ht, hnames⟩ := map_eq_ok_iff.1 hresolved
  obtain ⟨d, hd, ht⟩ := bind_eq_ok_iff.1 ht
  obtain ⟨d', hd', -⟩ := map_eq_ok_iff.1 hloaded'
  obtain ⟨-, hall⟩ :=
    dialects_agree read_long.holds_swagger read_long.holds_openApi regular_long hd hd'
  have hsame := hall regular_long
  exact ⟨d, d', t, hd, hd', ht, hsame ▸ ht, hnames⟩

/-- Ages that may only have one value have it listed in the one dialect, but not in the other. -/
theorem dialects_disagree : ¬ ∀ (text text' : String) (schemas : List (String × Schema))
    (d d' : Schema.Document) (t t' : TypeTable), Holds text .swagger schemas →
    Holds text' .openApi schemas → load text = .ok d → load text' = .ok d' → resolve d = .ok t →
    resolve d' = .ok t' → t = t' := by
  intro hall
  let listed (t : TypeTable) := t.models.values.flatMap fun m => m.fields.flatMap (·.allowedValues)
  have hswagger : (((Source.ofData (swaggerPetData listedData)).bind Source.document).bind
      resolve).map listed = .ok ["1"] := by
    decide +kernel
  have hopenApi : (((Source.ofData (openApiPetData listedData)).bind Source.document).bind
      resolve).map listed = .ok [] := by
    decide +kernel
  rw [← load_eq read_listed.swagger] at hswagger
  rw [← load_eq read_listed.openApi] at hopenApi
  obtain ⟨t, ht, hlisted⟩ := map_eq_ok_iff.1 hswagger
  obtain ⟨t', ht', hlisted'⟩ := map_eq_ok_iff.1 hopenApi
  obtain ⟨d, hd, ht⟩ := bind_eq_ok_iff.1 ht
  obtain ⟨d', hd', ht'⟩ := bind_eq_ok_iff.1 ht'
  have hsame :=
    hall _ _ _ d d' t t' read_listed.holds_swagger read_listed.holds_openApi hd hd' ht ht'
  rw [hsame, hlisted'] at hlisted
  cases hlisted

end Shared

end TypedClient
