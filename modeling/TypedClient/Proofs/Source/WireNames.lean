import Mathlib
import TypedClient.Proofs.Source.Containment
import TypedClient.Proofs.Source.Identifiers
import TypedClient.Proofs.Source.Clashes
import TypedClient.Proofs.Source.Literals

/-!
# Names of members

The names in one scope give as many identifiers, in their order, which are valid and differ from each
other and from those that are reserved. A field whose identifier is not its name in the document says
in an attribute what it is called there, and so data is read and written under the names that the
document declares.
-/

namespace TypedClient.Source

/-! ## One scope -/

/-- Each base has the candidate that stands in its place. -/
theorem forall₂_distinctFrom (suffix : String) (taken bases : List String) :
    List.Forall₂ (fun base s => ∃ n, s = candidate base suffix n) bases
      (distinctFrom suffix taken bases) := by
  induction bases generalizing taken with
  | nil => exact .nil
  | cons base bases ih => exact .cons (exists_freshName_eq _ _) (ih _)

/-- The identifiers stand for the names in order. -/
theorem forall₂_snakeIdentifiers (reserved names : List String) :
    List.Forall₂ (fun name s => ∃ n, s = candidate (snakeIdentifier name) "_" n) names
      (snakeIdentifiers reserved names) :=
  List.forall₂_map_left_iff.1 (forall₂_distinctFrom "_" reserved _)

/-! ## Names of fields in data -/

/-- The name that is given by an argument of an attribute. -/
def renaming? (argument : String) : Option String :=
  ("rename = ".toList.isPrefixOf? argument.toList).bind fun rest =>
    Literal.read? (String.ofList rest)

namespace Attribute

/-- The name that an attribute says to use in data. -/
def renaming? : Attribute → Option String
  | .applied name arguments => if name = "serde" then arguments.findSome? Source.renaming? else none
  | .doc _                  => none
  | .plain _                => none

def derives (trait : String) : Attribute → Bool
  | .applied name arguments => name = "derive" && arguments.contains trait
  | .doc _                  => false
  | .plain _                => false

end Attribute

/-- What the field is called in data: as an attribute says, or else by its identifier. -/
def RecordField.wireName (f : RecordField) : String :=
  (f.attributes.findSome? Attribute.renaming?).getD f.name

/-- The record can be read from data and written as such. -/
def Record.isSerialized (r : Record) : Bool :=
  r.attributes.any (·.derives "serde::Serialize") && r.attributes.any (·.derives "serde::Deserialize")

variable {ns : TypeNames} {models : List Model} {c : Client}

theorem renaming?_rename (name : String) : renaming? ("rename = " ++ literal name) = some name := by
  have hprefix : "rename = ".toList.isPrefixOf? ("rename = " ++ literal name).toList =
      some (literal name).toList :=
    List.isPrefixOf?_eq_some_iff_append_eq.2 String.toList_append.symm
  rw [renaming?, hprefix, Option.bind_some, String.ofList_toList, Literal.read?_literal]

/-! ## Attributes -/

theorem findSome?_documentation (ls : List String) :
    (documentation ls).findSome? Attribute.renaming? = none := by
  simp [documentation, Attribute.renaming?]

theorem any_derives_documentation (ls : List String) (trait : String) :
    (documentation ls).any (·.derives trait) = false := by
  simp [documentation, Attribute.derives]

namespace NamedField

/-- A field is renamed where its identifier is not its name. -/
theorem findSome?_serialization (f : NamedField) : f.serialization.findSome? Attribute.renaming? =
    if f.field.name = f.name then none else some f.field.name := by
  have hdefault : Source.renaming? "default" = none := by decide
  have hskip : Source.renaming? "skip_serializing_if = \"Option::is_none\"" = none := by decide
  unfold serialization
  by_cases hname : f.field.name = f.name
  · cases hoptional : f.field.isOptional <;> simp [hname, Attribute.renaming?, hdefault, hskip]
  · cases hoptional : f.field.isOptional <;> simp [hname, Attribute.renaming?, renaming?_rename]

theorem wireName_recordField (ns : TypeNames) (f : NamedField) :
    (f.recordField ns).wireName = f.field.name := by
  rw [RecordField.wireName, recordField, List.findSome?_append, findSome?_documentation,
    Option.none_or, findSome?_serialization]
  split
  · rename_i hname
    exact hname.symm
  · rfl

end NamedField

theorem map_name_namedFields (m : Model) :
    (namedFields m).map (·.name) = snakeIdentifiers [] (m.fields.map (·.name)) := by
  have hlength : (snakeIdentifiers [] (m.fields.map (·.name))).length ≤ m.fields.length := by
    simp [length_snakeIdentifiers]
  rw [namedFields, List.map_map]
  exact List.map_snd_zip hlength

/-! ## Records of the source -/

theorem isSerialized_modelRecord (ns : TypeNames) (m : Model) :
    (modelRecord ns m).isSerialized = true := by
  simp [Record.isSerialized, modelRecord, Attribute.derives]

/-- A client is no data. -/
theorem isSerialized_clientRecord (ns : TypeNames) : (clientRecord ns).isSerialized = false := by
  rw [Record.isSerialized, clientRecord, List.any_append, any_derives_documentation]
  rfl

/-- The records that are data are those of the models. -/
theorem filter_isSerialized (models : List Model) (c : Client) :
    (records (items models c)).filter Record.isSerialized =
      models.map (modelRecord (.ofModels models c)) := by
  have hrecords : records (items models c) =
      models.map (modelRecord (.ofModels models c)) ++ [clientRecord (.ofModels models c)] := by
    rw [items, records, List.filterMap_append, ← records, records_flatMap]
    rfl
  rw [hrecords, List.filter_append, List.filter_cons_of_neg (by simp [isSerialized_clientRecord]),
    List.filter_nil, List.append_nil, List.filter_eq_self]
  intro r hr
  obtain ⟨m, -, rfl⟩ := List.mem_map.1 hr
  exact isSerialized_modelRecord _ m

/-- The names in a scope get valid identifiers in their order, which differ from each other and from
those that are reserved. The records of the source that are data have the identifiers of the fields of
each model, and each field is called in data what the document calls it. -/
theorem members_named :
    (∀ reserved names : List String, (snakeIdentifiers reserved names).Nodup ∧
      List.Forall₂ (fun name s => ∃ n, s = candidate (snakeIdentifier name) "_" n) names
        (snakeIdentifiers reserved names) ∧
      ∀ s ∈ snakeIdentifiers reserved names, s ∉ reserved ∧ IsIdentifier s) ∧
    ∀ models c, List.Forall₂ (fun (m : Model) (r : Record) =>
        r.fields.map (·.name) = snakeIdentifiers [] (m.fields.map (·.name)) ∧
        r.fields.map (·.wireName) = m.fields.map (·.name))
      models ((records (items models c)).filter Record.isSerialized) := by
  constructor
  · intro reserved names
    refine ⟨nodup_distinctFrom _ _ _, forall₂_snakeIdentifiers reserved names,
      fun s hs => ⟨not_mem_of_mem_distinctFrom hs, isIdentifier_of_mem_snakeIdentifiers hs⟩⟩
  · intro models c
    rw [filter_isSerialized, List.forall₂_map_right_iff, List.forall₂_same]
    intro m _
    constructor
    · rw [← map_name_namedFields, modelRecord, List.map_map]
      rfl
    · rw [← map_field_namedFields m, modelRecord, List.map_map, List.map_map]
      exact List.map_congr_left fun f _ => f.wireName_recordField _

/-- Names that are alike in snake case, a keyword, a name that is reserved elsewhere and one that
begins with a digit. -/
def photoNames : List String := ["photoUrls", "photo_urls", "type", "url", "2nd"]

/-- A text that may be left out. -/
def optionalText (name : String) : TypedClient.Field :=
  { name, type := .nullable (.primitive .text), required := false, description := none,
    allowedValues := [], cyclic := false }

def photoModel : Model :=
  { name := "Photo", description := none, fields := photoNames.map optionalText }

def photoClient : Client := { name := "Client", baseEndpoint := "", methods := [] }

/-- The identifiers differ from what is reserved and, in the record, from the names themselves. -/
theorem photo_named :
    snakeIdentifiers ["url"] photoNames = ["photo_urls", "photo_urls_", "type_", "url_", "_2nd"] ∧
    "url_" ∉ ["url"] ∧ IsIdentifier "url_" ∧
    ∃ r ∈ records (items [photoModel] photoClient), r.isSerialized = true ∧
      r.fields.map (·.name) = ["photo_urls", "photo_urls_", "type_", "url", "_2nd"] ∧
      r.fields.map (·.wireName) = photoNames := by
  have hscope : snakeIdentifiers ["url"] photoNames =
      ["photo_urls", "photo_urls_", "type_", "url_", "_2nd"] := by decide +kernel
  obtain ⟨-, -, hvalid⟩ := members_named.1 ["url"] photoNames
  obtain ⟨hfree, hidentifier⟩ := hvalid "url_" (by rw [hscope]; decide)
  have hrecords := members_named.2 [photoModel] photoClient
  obtain ⟨r, rest, ⟨hnames, hwire⟩, -, hr⟩ := List.forall₂_cons_left_iff.1 hrecords
  have hmem : r ∈ (records (items [photoModel] photoClient)).filter Record.isSerialized := by
    rw [hr]
    exact List.mem_cons_self
  obtain ⟨hmem, hserialized⟩ := List.mem_filter.1 hmem
  refine ⟨hscope, hfree, hidentifier, r, hmem, hserialized, ?_, ?_⟩
  · rw [hnames]
    decide +kernel
  · rw [hwire]
    decide

end TypedClient.Source
