import TypedClient.Proofs.AllOf
import TypedClient.Proofs.Hoisting.OpenApi
import TypedClient.Proofs.Hoisting.Swagger
import TypedClient.Proofs.JsonText

/-!
# What a loaded document keeps

The object schemas of a document become its first definitions. One more follows for each schema that is
hoisted, under a name of its own, so that none takes the place of another definition or of an alias.
-/

namespace TypedClient

open Schema (Catalog TypeRef Definition)

/-- A base or a type of the document refers to `name`. -/
inductive Schema.Document.Refers (d : Document) (name : String) : Prop where
  | base {e : String × Definition} (he : e ∈ d.definitions.entries) (hbase : name ∈ e.2.bases)
  | property {e : String × Definition} {p : Property} (he : e ∈ d.definitions.entries)
      (hp : p ∈ e.2.properties) (hname : p.type.innermost = .reference name)
  | aliased {e : String × TypeRef} (he : e ∈ d.aliases.entries)
      (hname : e.2.innermost = .reference name)
  | operation {o : Operation} {type : TypeRef} (ho : o ∈ d.operations) (htype : OperationHas o type)
      (hname : type.innermost = .reference name)

namespace Source

/-- A reference that is written in the document leads to the schema `name`. -/
def LeadsTo (src : Source) (name : String) : Prop :=
  match src with
  | .swagger d => d.LeadsTo name
  | .openApi d => d.LeadsTo name

variable {src : Source} {c : Catalog} {d : Schema.Document} {operations : List Schema.Operation}

theorem names_schemas (src : Source) : src.schemas.map Prod.fst = src.schemaNames := by
  cases src <;> simp [schemas, schemaNames, OrderedMap.names]

theorem nodup_schemaNames (src : Source) : src.schemaNames.Nodup := by
  cases src with
  | swagger d => exact d.definitions.distinct
  | openApi d => exact d.components.schemas.distinct

theorem convert_fills (h : src.convert = (.ok operations, c)) :
    c.Tidy src.LeadsTo src.schemaNames [] ∧
    c.definitions.entries = c.declared.entries ++ c.hoisted.entries ∧
    c.declared.names = (src.schemas.filter fun e => e.2.isObject).map Prod.fst ∧
    c.aliases.names = (src.schemas.filter fun e => !e.2.isObject).map Prod.fst ∧
    (∀ e ∈ c.declared.entries, e.2.name = e.1) ∧
    (∀ e ∈ c.declared.entries, e.2.Sound (c.Known src.LeadsTo)) ∧
    (∀ e ∈ c.aliases.entries, e.2.Within (c.Known src.LeadsTo)) ∧
    ∀ o ∈ operations, o.Within (c.Known src.LeadsTo) := by
  cases src with
  | swagger document =>
    obtain ⟨hfilled, hoperations⟩ := (Swagger.convert_fills document).of_ok h
    refine ⟨hfilled.tidy, hfilled.definitions, ?_, ?_, hfilled.keys, hfilled.sound, hfilled.types,
      hoperations⟩
    · simp [hfilled.declared, schemas, List.filter_map, Function.comp_def, Node.isObject]
    · simp [hfilled.aliases, schemas, List.filter_map, Function.comp_def, Node.isObject]
  | openApi document =>
    obtain ⟨hfilled, hoperations⟩ := (OpenApi.convert_fills document).of_ok h
    refine ⟨hfilled.tidy, hfilled.definitions, ?_, ?_, hfilled.keys, hfilled.sound, hfilled.types,
      hoperations⟩
    · simp [hfilled.declared, schemas, List.filter_map, Function.comp_def, Node.isObject]
    · simp [hfilled.aliases, schemas, List.filter_map, Function.comp_def, Node.isObject]

/-- How a document `d` comes from its source and the catalog that the conversion has filled. The names
in `claimed` are those that the conversion has claimed, one for each schema that it hoists. -/
structure Keeps (src : Source) (c : Catalog) (claimed : List String) (d : Schema.Document) : Prop where
  keys : ∀ e ∈ d.definitions.entries, e.2.name = e.1
  properties : ∀ e ∈ d.definitions.entries, (e.2.properties.map (·.name)).Nodup
  disjoint : ∀ name ∈ d.definitions.names, name ∉ d.aliases.names
  /-- All definitions are there, the declared ones first. -/
  definitions : d.definitions.entries = c.declared.entries ++ c.hoisted.entries
  declared : c.declared.names = (src.schemas.filter fun e => e.2.isObject).map Prod.fst
  aliases : d.aliases.names = (src.schemas.filter fun e => !e.2.isObject).map Prod.fst
  /-- No claimed name was taken. -/
  taken : c.taken = claimed ++ src.schemaNames
  nodup : c.taken.Nodup
  /-- Under each claimed name one definition is hoisted. -/
  hoisted : c.hoisted.names.Perm claimed
  /-- What is not written in the source comes from hoisting. -/
  references : ∀ name, d.Refers name → src.LeadsTo name ∨ name ∈ c.hoisted.names

end Source

variable {text : String} {d : Schema.Document}

/-- Names that belong to some of the schemas, and names that belong to the others. -/
theorem Source.disjoint_names (src : Source) (p : String × Node → Bool) {name : String}
    (h : name ∈ (src.schemas.filter p).map Prod.fst) :
    name ∉ (src.schemas.filter fun e => !p e).map Prod.fst := by
  have hdistinct : (src.schemas.map Prod.fst).Nodup := src.names_schemas ▸ src.nodup_schemaNames
  intro h'
  obtain ⟨e, he, rfl⟩ := List.mem_map.1 h
  obtain ⟨e', he', hname⟩ := List.mem_map.1 h'
  rw [List.mem_filter] at he he'
  have heq := List.inj_on_of_nodup_map hdistinct he'.1 he.1 hname
  simp [heq, he.2] at he'

/-- A document that loads keeps every definition under its own name. Each claimed name gets one
definition, after those that are declared, and none replaces another. -/
theorem load_keeps (h : load text = .ok d) : ∃ src operations c claimed,
    Source.read text = .ok src ∧ src.convert = (.ok operations, c) ∧ src.Keeps c claimed d := by
  obtain ⟨src, hsrc, hdocument⟩ := bind_eq_ok_iff.1 h
  rw [Source.document] at hdocument
  split at hdocument
  · cases hdocument
  · rename_i operations c hrun
    cases hdocument
    obtain ⟨htidy, hentries, hdeclared, haliases, hkeys, hsound, htypes, hoperations⟩ :=
      Source.convert_fills hrun
    obtain ⟨claimed, htaken⟩ := htidy.suffix
    have hperm : c.hoisted.names.Perm claimed := by
      have := htidy.taken
      rw [← htaken, List.nil_append, List.perm_append_right_iff] at this
      exact this.symm
    have hdefinition {P : String × Definition → Prop} (h : ∀ e ∈ c.declared.entries, P e)
        (h' : ∀ e ∈ c.hoisted.entries, P e) : ∀ e ∈ c.definitions.entries, P e := by
      rw [hentries]
      exact List.forall_mem_append.2 ⟨h, h'⟩
    have hsound := hdefinition hsound htidy.sound
    refine ⟨src, operations, c, claimed, hsrc, hrun, ?_⟩
    exact {
      keys := hdefinition hkeys htidy.keys
      properties := fun e he => (hsound e he).properties.nodup
      disjoint := by
        intro name hname halias
        rw [haliases] at halias
        rw [OrderedMap.names, hentries, List.map_append, List.mem_append] at hname
        rcases hname with hname | hname
        · have hname : name ∈ c.declared.names := hname
          rw [hdeclared] at hname
          exact src.disjoint_names _ hname halias
        · have hschema := (List.filter_sublist.map Prod.fst).subset halias
          rw [src.names_schemas] at hschema
          exact htidy.not_mem_reserved hname hschema
      definitions := hentries
      declared := hdeclared
      aliases := haliases
      taken := htaken.symm
      nodup := htidy.nodup
      hoisted := hperm
      references := by
        intro name hname
        cases hname with
        | base he hbase => exact (hsound _ he).bases name hbase
        | property he hp hname => exact (hsound _ he).properties.types _ hp name hname
        | aliased he hname => exact htypes _ he name hname
        | operation ho htype hname =>
          rcases htype with ⟨p, hp, rfl⟩ | ⟨r, hr, rfl⟩
          · exact (hoperations _ ho).parameters p hp name hname
          · exact (hoperations _ ho).response r hr name hname }

open Json (record quote)

/-- Pets with an owner that is written inline, and another schema that has the name of such an owner. -/
def ownerText : String :=
  record [
    ("swagger", quote "2.0"),
    ("definitions", record [
      ("Pet", record [("properties", record [
        ("owner", record [("properties", record [("name", record [("type", quote "string")])])])])]),
      ("PetOwner", record [("type", quote "string")])])]

/-- The owner is hoisted under a name that is not taken yet. -/
theorem ownerText_kept : ∃ d, load ownerText = .ok d ∧ d.definitions.names = ["Pet", "PetOwner2"] ∧
    d.aliases.names = ["PetOwner"] ∧ ∃ src c claimed, Source.read ownerText = .ok src ∧
      src.Keeps c claimed d := by
  have hnames : (load ownerText).map (fun d => (d.definitions.names, d.aliases.names)) =
      .ok (["Pet", "PetOwner2"], ["PetOwner"]) := by
    rw [load_eq_documentData ?text]
    case text =>
      simp only [ownerText, Json.toList_record, Json.toList_quote, List.map_cons, List.map_nil]
      rfl
    decide +kernel
  obtain ⟨d, hd, hnames⟩ := map_eq_ok_iff.1 hnames
  obtain ⟨hdefinitions, haliases⟩ := Prod.mk.inj hnames
  obtain ⟨src, operations, c, claimed, hsrc, -, hkeeps⟩ := load_keeps hd
  exact ⟨d, hd, hdefinitions, haliases, src, c, claimed, hsrc, hkeeps⟩

end TypedClient
