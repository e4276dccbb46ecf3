import TypedClient.Proofs.Conversion.OpenApi

/-!
# Kinds of OpenAPI 3 schemas

The kind of a schema goes by the families of its keywords. Whatever it is, it keeps the properties and
the required names that are written in the schema, unless the schema is an `allOf` alone and has none.
-/

namespace TypedClient.OpenApi

open TypedClient.Schema (TypeRef Property Conversion)

variable {s : Schema} {place : String} {l : Location}

namespace Keywords

variable {k : Keywords} {f : Family} {allowed : List Family}

theorem mem_families : f ∈ k.families ↔ k.has f = true := by
  rw [families, List.mem_filter]
  refine and_iff_right ?_
  cases f <;> decide

theorem has_eq_false_of_within (h : k.within allowed = true) (hf : f ∉ allowed) :
    k.has f = false := by
  rw [within, List.all_eq_true] at h
  by_contra hhas
  have hmem := h f (mem_families.2 (by simpa using hhas))
  exact hf (by simpa using hmem)

theorem has_eq_false_of_families {g : Family} (h : k.families = [g]) (hf : f ≠ g) :
    k.has f = false := by
  by_contra hhas
  have hmem : f ∈ k.families := mem_families.2 (by simpa using hhas)
  rw [h, List.mem_singleton] at hmem
  exact hf hmem

/-- A schema without keywords of an object has no properties. -/
theorem eq_none_of_has (h : k.has .object = false) : k.properties = none ∧ k.required = none := by
  simp_all [has]

/-- A kind that keeps the properties and the required names of the keywords, and has no parts. -/
structure Keeps (k : Keywords) (kind : Kind Schema) : Prop where
  properties : ∀ nullable description,
    Schema.properties ⟨nullable, description, kind⟩ = k.properties.getD []
  required : ∀ nullable description,
    Schema.required ⟨nullable, description, kind⟩ = k.required.getD []
  allOf : ∀ parts, kind ≠ .allOf parts

theorem keeps_general (k : Keywords) : k.Keeps k.general := ⟨fun _ _ => rfl, fun _ _ => rfl, nofun⟩

theorem keeps_of_has {kind : Kind Schema} (h : k.has .object = false)
    (hproperties : ∀ nullable description, Schema.properties ⟨nullable, description, kind⟩ = [])
    (hrequired : ∀ nullable description, Schema.required ⟨nullable, description, kind⟩ = [])
    (hallOf : ∀ parts, kind ≠ .allOf parts) : k.Keeps kind := by
  obtain ⟨hp, hr⟩ := eq_none_of_has h
  exact ⟨fun n d => by rw [hproperties, hp]; rfl, fun n d => by rw [hrequired, hr]; rfl, hallOf⟩

/-- A kind that goes with keywords of other families than those of an object. -/
theorem keeps_of_within {kind : Kind Schema} (h : k.within allowed = true)
    (hobject : .object ∉ allowed)
    (hproperties : ∀ nullable description, Schema.properties ⟨nullable, description, kind⟩ = [])
    (hrequired : ∀ nullable description, Schema.required ⟨nullable, description, kind⟩ = [])
    (hallOf : ∀ parts, kind ≠ .allOf parts) : k.Keeps kind :=
  keeps_of_has (has_eq_false_of_within h hobject) hproperties hrequired hallOf

/-- What does not go with its type is of the general kind. -/
theorem keeps_ite {kind : Kind Schema} {c : Bool} (h : c = true → k.Keeps kind) :
    k.Keeps (if c then kind else k.general) := by
  split
  · exact h ‹_›
  · exact k.keeps_general

theorem keeps_typed (k : Keywords) (type : String) : k.Keeps (k.typed type) := by
  unfold typed
  split
  case h_1 | h_2 | h_4 =>
    refine keeps_ite fun h => ?_
    have hwithin := (Bool.and_eq_true_iff.1 h).1
    exact keeps_of_within hwithin (by decide) (fun _ _ => rfl) (fun _ _ => rfl) nofun
  case h_3 =>
    refine keeps_ite fun h => ?_
    have hwithin := (Bool.and_eq_true_iff.1 (Bool.and_eq_true_iff.1 h).1).1
    exact keeps_of_within hwithin (by decide) (fun _ _ => rfl) (fun _ _ => rfl) nofun
  case h_5 =>
    exact keeps_ite fun h => keeps_of_within h (by decide) (fun _ _ => rfl) (fun _ _ => rfl) nofun
  -- an object has the properties and the required names as they are
  case h_6 => exact keeps_ite fun _ => ⟨fun _ _ => rfl, fun _ _ => rfl, nofun⟩
  case h_7 => exact k.keeps_general

theorem keeps_untyped (h : k.families ≠ [.allOf]) : k.Keeps k.untyped := by
  unfold untyped
  split
  case h_2 => exact absurd ‹_› h
  case h_5 => exact k.keeps_general
  all_goals
    rename_i hfamilies
    have hobject := has_eq_false_of_families hfamilies (by decide : Family.object ≠ _)
    exact keeps_of_has hobject (fun _ _ => rfl) (fun _ _ => rfl) nofun

theorem keeps_kind (h : k.type = none → k.families ≠ [.allOf]) : k.Keeps k.kind := by
  unfold kind
  split
  · exact k.keeps_typed _
  · exact keeps_untyped (h ‹_›)

end Keywords

/-! ## Types of kinds -/

/-- The type of a kind that says all about it. -/
def Kind.type? : Kind Schema → Option TypeRef
  | .string format values => some (.primitive "string" format values)
  | .number => some (.primitive "number" none [])
  | .integer => some (.primitive "integer" none [])
  | .boolean => some (.primitive "boolean" none [])
  | .array none => some (.array .any)
  | .object [] _ .unsaid => some .any
  | .object [] _ .free => some .any
  | .general [] _ _ => some .any
  | _ => none

theorem inlineType_of_type? {type : TypeRef} (h : s.kind.type? = some type) :
    inlineType s place l = pure type := by
  rw [inlineType]
  dsimp only
  split <;> simp_all [Kind.type?]
  split at h <;> simp_all

theorem inlineType_array {items : OrReference Schema} (h : s.kind = .array (some items)) :
    inlineType s place l = .array <$> typeOf items (place ++ "Item") (l.key "items") := by
  rw [inlineType]
  dsimp only
  split <;> simp_all

theorem inlineType_map {required : List String} {values : OrReference Schema}
    (h : s.kind = .object [] required (.schema values)) :
    inlineType s place l =
      .map <$> typeOf values (place ++ "Value") (l.key "additionalProperties") := by
  rw [inlineType]
  dsimp only
  split <;> simp_all

theorem inlineType_properties (h : s.properties ≠ []) : inlineType s place l = hoisted s place l := by
  rw [Schema.properties] at h
  rw [inlineType]
  dsimp only
  split <;> simp_all

theorem inlineType_sole {r : String} (h : s.kind = .allOf [.reference r]) :
    inlineType s place l =
      .reference <$> Conversion.target .schema r ((l.key "allOf").item 0) := by
  rw [inlineType]
  dsimp only
  split <;> simp_all

theorem inlineType_allOf {parts : List (OrReference Schema)} (h : s.kind = .allOf parts)
    (hsole : ∀ r, [.reference r] ≠ parts) : inlineType s place l = hoisted s place l := by
  rw [inlineType]
  dsimp only
  split <;> simp_all

theorem partProperties_allOf {parts : List (OrReference Schema)} {owner : String}
    {required : List String} {declared : List Property} (h : s.kind = .allOf parts) :
    partProperties owner required l s declared =
      partsProperties owner required l parts declared := by
  rw [partProperties]
  dsimp only
  split <;> simp_all

theorem parts_allOf {parts : List (OrReference Schema)} (h : s.kind = .allOf parts) :
    s.parts l = .own s :: Schema.partsFrom 0 parts (l.key "allOf") := by
  rw [Schema.parts]
  split <;> simp_all

theorem isObject_of_properties (h : s.properties ≠ []) : s.isObject = true := by
  unfold Schema.properties at h
  unfold Schema.isObject
  split at h <;> simp_all

end TypedClient.OpenApi
