import TypedClient.Loading
import TypedClient.Proofs.Conversion.OpenApi
import TypedClient.Proofs.Conversion.Swagger

/-!
# Schemas of both dialects

What a conversion makes of a named schema is said in the same words for both dialects. A schema is a
tree of parts, some of which refer to other schemas; of the ones that the conversion goes through, the
inline ones declare the properties of a definition, and the other ones lead to its bases.
-/

namespace TypedClient

open Schema (Adds Definition)

namespace Source

/-- A schema, or a reference to one, as it is written in a document. -/
inductive Node where
  | swagger (s : Swagger.Schema)
  | openApi (s : OpenApi.OrReference OpenApi.Schema)

namespace Node

def reference : Node → Option String
  | .swagger s => s.reference
  | .openApi s => s.target?

/-- The names of the properties that are written in the schema itself. -/
def propertyNames : Node → List String
  | .swagger s => s.propertyNames
  | .openApi s => s.propertyNames

/-- The parts of the `allOf`, whatever else is written beside it. -/
def allOf : Node → List Node
  | .swagger s              => s.allOf.map .swagger
  | .openApi (.item s)      =>
    match s.kind with
    | .allOf parts       => parts.map .openApi
    | .general _ _ parts => parts.map .openApi
    | _                  => []
  | .openApi (.reference _) => []

/-- The names that are listed as required in the schema itself. -/
def required : Node → List String
  | .swagger s              => s.required
  | .openApi (.item s)      => s.required
  | .openApi (.reference _) => []

/-- The names of the properties that are written in the schema itself, with their nullable markers. -/
def marked : Node → List (String × Bool)
  | .swagger s              => s.marked
  | .openApi (.item s)      => s.marked
  | .openApi (.reference _) => []

/-- Whether the conversion makes a definition of the schema when it is a named one. -/
def isObject : Node → Bool
  | .swagger s => s.isObject
  | .openApi s => s.isObject

/-- The parts that the conversion goes through. -/
inductive Takes : Node → Node → Prop where
  | swagger {s x : Swagger.Schema} (h : s.Takes x) : Takes (.swagger s) (.swagger x)
  | openApi {s x : OpenApi.OrReference OpenApi.Schema} (h : OpenApi.Takes s x) :
      Takes (.openApi s) (.openApi x)

/-- Of those parts the ones that are written inline, in their order. -/
def inlineParts : Node → List Node
  | .swagger s => s.inlineParts.map .swagger
  | .openApi s => s.inlineParts.map fun x => .openApi (.item x)

theorem mem_inlineParts_iff {s x : Node} (hs : s.isObject = true) :
    x ∈ s.inlineParts ↔ s.Takes x ∧ x.reference = none := by
  cases s with
  | swagger s =>
    have hreference := Swagger.Schema.reference_of_isObject hs
    rw [inlineParts, List.mem_map]
    constructor
    · rintro ⟨part, hpart, rfl⟩
      obtain ⟨htakes, hinline⟩ := (Swagger.Schema.mem_inlineParts_iff hreference).1 hpart
      exact ⟨.swagger htakes, hinline⟩
    · rintro ⟨⟨htakes⟩, hinline⟩
      exact ⟨_, (Swagger.Schema.mem_inlineParts_iff hreference).2 ⟨htakes, hinline⟩, rfl⟩
  | openApi s =>
    cases s with
    | reference r => cases hs
    | item schema =>
      rw [inlineParts, List.mem_map]
      constructor
      · rintro ⟨part, hpart, rfl⟩
        exact ⟨.openApi ((OpenApi.mem_inlineParts_iff schema).1 hpart), rfl⟩
      · rintro ⟨htakes, hinline⟩
        cases htakes with
        | @openApi _ x htakes =>
          cases x with
          | reference r => cases hinline
          | item part => exact ⟨part, (OpenApi.mem_inlineParts_iff schema).2 htakes, rfl⟩

end Node

/-- The schemas that a document declares. -/
def schemas : Source → List (String × Node)
  | .swagger d => d.definitions.entries.map fun (name, s) => (name, .swagger s)
  | .openApi d => d.components.schemas.entries.map fun (name, s) => (name, .openApi s)

end Source

open Source (Node)

variable {name : String} {src : Source} {d : Schema.Document} {s : Node}

/-! ## Conversion -/

/-- The definition has what the parts have. -/
def Source.Node.Makes (s : Node) (d : Definition) : Prop :=
  d.MadeOf s.Takes (·.reference) (·.propertyNames)

theorem Source.Node.makes_swagger {s : Swagger.Schema} {d : Definition} (h : s.Makes d) :
    (Node.swagger s).Makes d := by
  refine .image Node.swagger h fun y => ⟨?_, ?_⟩
  · rintro ⟨h⟩
    exact ⟨_, h, rfl⟩
  · rintro ⟨x, hx, rfl⟩
    exact .swagger hx

theorem Source.Node.makes_openApi {s : OpenApi.OrReference OpenApi.Schema} {d : Definition}
    (h : OpenApi.Makes s d) : (Node.openApi s).Makes d := by
  refine .image Node.openApi h fun y => ⟨?_, ?_⟩
  · rintro ⟨h⟩
    exact ⟨_, by assumption, rfl⟩
  · rintro ⟨x, hx, rfl⟩
    exact .openApi hx

/-- The properties of the definition are declared by the inline parts, one part after the other. -/
def Source.Node.Marks (s : Node) (d : Definition) : Prop :=
  Adds (s.inlineParts.flatMap (·.required)) (s.inlineParts.flatMap (·.marked)) [] d.properties

theorem Source.Node.marks_swagger {s : Swagger.Schema} {d : Definition} (h : s.Marks d) :
    (Node.swagger s).Marks d := by
  rw [Marks, inlineParts, List.flatMap_map, List.flatMap_map]
  exact h

theorem Source.Node.marks_openApi {s : OpenApi.OrReference OpenApi.Schema} {d : Definition}
    (h : OpenApi.Marks s d) : (Node.openApi s).Marks d := by
  rw [Marks, inlineParts, List.flatMap_map, List.flatMap_map]
  exact h

/-- Of the schemas of a document the objects become definitions, made of their parts. -/
theorem Source.definitions_spec (h : src.document = .ok d) (hmem : (name, s) ∈ src.schemas) :
    (s.isObject = true → ∃ definition, d.definitions.get? name = some definition ∧
      s.Makes definition ∧ s.Marks definition) ∧
    (s.isObject ≠ true → name ∉ d.definitions.names) := by
  rw [Source.document] at h
  split at h
  · cases h
  · rename_i operations c hrun
    cases h
    cases src with
    | swagger document =>
      obtain ⟨hconverted, -⟩ := (Swagger.convert_spec document).of_ok hrun
      obtain ⟨⟨_, schema⟩, hentry, heq⟩ := List.mem_map.1 hmem
      cases heq
      refine ⟨fun hobject => ?_, fun hobject => hconverted.not_definition hentry hobject⟩
      obtain ⟨definition, hget, hmakes, hmarks⟩ := hconverted.definition hentry hobject
      exact ⟨definition, hget, Node.makes_swagger hmakes, Node.marks_swagger hmarks⟩
    | openApi document =>
      obtain ⟨hconverted, -⟩ := (OpenApi.convert_spec document).of_ok hrun
      obtain ⟨⟨_, schema⟩, hentry, heq⟩ := List.mem_map.1 hmem
      cases heq
      refine ⟨fun hobject => ?_, fun hobject => hconverted.not_definition hentry hobject⟩
      obtain ⟨definition, hget, hmakes, hmarks⟩ := hconverted.definition hentry hobject
      exact ⟨definition, hget, Node.makes_openApi hmakes, Node.marks_openApi hmarks⟩

end TypedClient
