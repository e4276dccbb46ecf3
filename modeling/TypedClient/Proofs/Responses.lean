import TypedClient.Proofs.Conversion.Nodes
import TypedClient.Proofs.OpenApi.JsonContent

/-!
# The response of an operation

An operation declares responses under the statuses that they are for, and a method returns what one of
them has. Which one this is depends on the statuses and on which of the responses have a schema, in
the same way for both dialects.
-/

namespace TypedClient

open Schema (Catalog ResponseClass TypeRef Verb selectResponse)
open Schema.Conversion (Hoists Yields)

namespace Schema

/-! ## Responses with and without a schema -/

section Selection

variable {ρ σ : Type} {declared : List (String × Option σ)} {p : String → Bool} {key : String}
  {index : Nat} {optional : Bool}

/-- The statuses of success start with a two. -/
def isSuccess (key : String) : Bool := key.toList.head? = some '2'

/-- A response under a status of success has a schema, or there is no such status and the fallback has
a schema. -/
def Answered (declared : List (String × Option σ)) : Prop :=
  (∃ e ∈ declared, isSuccess e.1 ∧ e.2.isSome) ∨
    (∀ e ∈ declared, ¬ isSuccess e.1) ∧ ∃ e ∈ declared, e.1 = "default" ∧ e.2.isSome

/-- The first response with a schema, of those under a key for which `p` holds. -/
def firstWithSchema (p : String → Bool) (declared : List (String × Option σ)) :
    Option (String × Option σ) :=
  declared.find? fun e => p e.1 && e.2.isSome

/-- `s` is the schema of the first response with one under a status of success, or else that of the
fallback. A call may come back without content if some success has no schema, and if it is the
fallback that counts. -/
structure Counts (declared : List (String × Option σ)) (key : String) (s : σ) (optional : Bool) :
    Prop where
  first : (firstWithSchema isSuccess declared).or (firstWithSchema (· = "default") declared) =
    some (key, some s)
  optional : optional = true ↔ (∃ e ∈ declared, isSuccess e.1 ∧ e.2 = none) ∨ key = "default"

/-- Something is returned exactly if there is an answer, and its type is that of the schema that
counts. -/
structure Returned (declared : List (String × Option σ)) (Typed : σ → TypeRef → Prop)
    (response : Option Response) : Prop where
  isSome_iff : response.isSome ↔ Answered declared
  counts : ∀ r, response = some r → ∃ key s, Counts declared key s r.optional ∧ Typed s r.type

theorem Returned.of_not_answered {Typed : σ → TypeRef → Prop} (h : ¬ Answered declared) :
    Returned declared Typed none where
  isSome_iff := by simpa using h
  counts := nofun

theorem Returned.of_counts {Typed : σ → TypeRef → Prop} {s : σ} {type : TypeRef}
    (h : Answered declared) (hcounts : Counts declared key s optional) (htype : Typed s type) :
    Returned declared Typed (some { type, optional }) where
  isSome_iff := by simpa using h
  counts r hr := by
    cases hr
    exact ⟨key, s, hcounts, htype⟩

theorem firstWithSchema_eq_none_iff :
    firstWithSchema p declared = none ↔ ∀ e ∈ declared, p e.1 → e.2 = none := by
  simp [firstWithSchema, List.find?_eq_none]

/-! ## Selection -/

theorem ofKey_eq_success_iff : ResponseClass.ofKey key = .success ↔ isSuccess key := by
  rw [ResponseClass.ofKey]
  split
  · subst key
    decide
  · split <;> simp_all [isSuccess]

theorem ofKey_eq_fallback_iff : ResponseClass.ofKey key = .fallback ↔ decide (key = "default") := by
  rw [ResponseClass.ofKey]
  split
  · simp_all
  · split <;> simp_all

/-- What the selection knows of the responses. -/
def classes (declared : List (String × Option σ)) : List (ResponseClass × Bool) :=
  declared.map fun e => (.ofKey e.1, e.2.isSome)

theorem not_any_classes_iff : ¬ (classes declared).any (·.1 = .success) ↔
    ∀ e ∈ declared, ¬ isSuccess e.1 := by
  simp [classes, ofKey_eq_success_iff]

theorem any_classes_without_iff : ((classes declared).any fun r => r.1 = .success && !r.2) ↔
    ∃ e ∈ declared, isSuccess e.1 ∧ e.2 = none := by
  simp [classes, ofKey_eq_success_iff]

section First

variable {kind : ResponseClass} (hkind : ∀ key, ResponseClass.ofKey key = kind ↔ p key)

include hkind

theorem findIdx?_classes : (classes declared).findIdx? (fun r => r.1 = kind && r.2) =
    declared.findIdx? fun e => p e.1 && e.2.isSome := by
  rw [classes, List.findIdx?_map]
  congr
  funext e
  simp [hkind]

theorem findIdx?_classes_eq_none_iff :
    (classes declared).findIdx? (fun r => r.1 = kind && r.2) = none ↔
      firstWithSchema p declared = none := by
  rw [findIdx?_classes hkind, List.findIdx?_eq_none_iff, firstWithSchema, List.find?_eq_none]
  simp

/-- At the first position there is the response that is found first. -/
theorem exists_of_findIdx?_classes
    (h : (classes declared).findIdx? (fun r => r.1 = kind && r.2) = some index) : ∃ key s,
      p key ∧ declared[index]? = some (key, some s) ∧
        firstWithSchema p declared = some (key, some s) := by
  rw [findIdx?_classes hkind] at h
  have hfirst : firstWithSchema p declared = declared[index]? := by
    rw [firstWithSchema, List.find?_eq_bind_findIdx?_getElem?, h, Option.bind_some]
  obtain ⟨hindex, hhas, -⟩ := List.findIdx?_eq_some_iff_getElem.1 h
  rw [Bool.and_eq_true, Option.isSome_iff_exists] at hhas
  obtain ⟨hkey, s, hs⟩ := hhas
  have hget : declared[index]? = some (declared[index].1, some s) := by
    rw [List.getElem?_eq_getElem hindex, ← hs]
  exact ⟨_, s, hkey, hget, hfirst.trans hget⟩

end First

theorem not_answered_of_selectResponse (h : selectResponse (classes declared) = none) :
    ¬ Answered declared := by
  rw [selectResponse] at h
  split at h
  · cases h
  · rename_i hnone
    rw [findIdx?_classes_eq_none_iff fun _ => ofKey_eq_success_iff,
      firstWithSchema_eq_none_iff] at hnone
    rintro (⟨e, he, hkey, hs⟩ | ⟨hsuccess, e, he, hkey, hs⟩)
    · rw [hnone e he hkey] at hs
      cases hs
    · rw [if_neg (not_any_classes_iff.2 hsuccess), Option.map_eq_none_iff,
        findIdx?_classes_eq_none_iff fun _ => ofKey_eq_fallback_iff,
        firstWithSchema_eq_none_iff] at h
      rw [h e he (decide_eq_true hkey)] at hs
      cases hs

theorem answered_of_selectResponse (h : selectResponse (classes declared) = some (index, optional)) :
    Answered declared ∧ ∃ key s, declared[index]? = some (key, some s) ∧
      Counts declared key s optional := by
  rw [selectResponse] at h
  split at h
  · rename_i i hi
    cases h
    obtain ⟨key, s, hkey, hget, hfirst⟩ :=
      exists_of_findIdx?_classes (fun _ => ofKey_eq_success_iff) hi
    refine ⟨.inl ⟨_, List.mem_of_getElem? hget, hkey, rfl⟩, key, s, hget, ?_, ?_⟩
    · rw [hfirst, Option.some_or]
    · have hdefault : key ≠ "default" := by
        rintro rfl
        exact absurd hkey (by decide)
      rw [any_classes_without_iff]
      simp only [hdefault, or_false]
  · rename_i hnone
    rw [findIdx?_classes_eq_none_iff fun _ => ofKey_eq_success_iff] at hnone
    split at h
    · cases h
    · rename_i hsuccess
      obtain ⟨i, hi, heq⟩ := Option.map_eq_some_iff.1 h
      cases heq
      obtain ⟨key, s, hkey, hget, hfirst⟩ :=
        exists_of_findIdx?_classes (fun _ => ofKey_eq_fallback_iff) hi
      have hkey : key = "default" := of_decide_eq_true hkey
      refine ⟨.inr ⟨?_, _, List.mem_of_getElem? hget, hkey, rfl⟩, key, s, hget, ?_, ?_⟩
      · exact not_any_classes_iff.1 hsuccess
      · rw [hnone, Option.none_or, hfirst]
      · simp [hkey]

/-- As `answered_of_selectResponse`, where the schemas are parts of the responses. -/
theorem exists_of_selectResponse {responses : List (String × ρ)} {f : ρ → Option σ}
    (h : selectResponse (classes (responses.map fun e => (e.1, f e.2))) = some (index, optional)) :
    ∃ key r s, responses[index]? = some (key, r) ∧ f r = some s ∧
      Answered (responses.map fun e => (e.1, f e.2)) ∧
      Counts (responses.map fun e => (e.1, f e.2)) key s optional := by
  obtain ⟨hanswered, key, s, hget, hcounts⟩ := answered_of_selectResponse h
  rw [List.getElem?_map, Option.map_eq_some_iff] at hget
  obtain ⟨⟨key, r⟩, hget, heq⟩ := hget
  obtain ⟨rfl, hs⟩ := Prod.mk.inj heq
  exact ⟨key, r, s, hget, hs, hanswered, hcounts⟩

end Selection

end Schema

/-! ## Types -/

namespace Source.Node

def typeOf : Node → String → Location → Schema.Conversion TypeRef
  | .swagger s => Swagger.typeOf s
  | .openApi s => OpenApi.typeOf s

/-- A conversion from `c` to `c'` ends with the type being made of the schema. -/
def Becomes (s : Node) (place : String) (c c' : Catalog) (type : TypeRef) : Prop :=
  ∃ l c₁, c.Hoists c₁ ∧ (s.typeOf place l).run c₁ = (.ok type, c')

end Source.Node

open Source (Node)

/-! ## Swagger 2.0 -/

namespace Swagger

/-- The schema of a response, if it has one. -/
def Response.node? (r : Response) : Option Node := r.schema.map .swagger

/-- The declared responses with all references followed. -/
def Document.Declares (d : Document) (responses declared : List (String × Response)) : Prop :=
  List.Forall₂
    (fun e e' => e'.1 = e.1 ∧ Reaches Response.reference .response d.responses e.2 e'.2)
    responses declared

theorem convertResponses_yields (d : Document) (responses : List (String × Response)) (l : Location) :
    Yields (d.convertResponses responses l) (d.Declares responses) :=
  .mapM fun _ _ => (Yields.of_unchanged (wp_response d _ _)).map fun _ hr => ⟨rfl, hr⟩

theorem wp_returned (method : String) (responses : List (String × Response)) (l : Location)
    {c c₁ : Catalog} (hc : c.Hoists c₁) :
    wp (returned method responses l) c₁
      (fun response c' => Schema.Returned (responses.map fun e => (e.1, e.2.node?))
        (·.Becomes (method ++ "Response") c c') response)
      fun _ _ => True := by
  have hclasses : (responses.map fun e => (ResponseClass.ofKey e.1, e.2.schema.isSome)) =
      Schema.classes (responses.map fun e => (e.1, e.2.node?)) := by
    simp [Schema.classes, Response.node?]
  unfold returned
  dsimp only
  rw [hclasses]
  cases hselect : selectResponse (Schema.classes (responses.map fun e => (e.1, e.2.node?))) with
  | none => exact .of_not_answered (Schema.not_answered_of_selectResponse hselect)
  | some selected =>
    obtain ⟨index, optional⟩ := selected
    obtain ⟨key, r, s, hget, hnode, hanswered, hcounts⟩ := Schema.exists_of_selectResponse hselect
    obtain ⟨s, hs, rfl⟩ := Option.map_eq_some_iff.1 hnode
    simp only [hget, hs]
    refine wp_bind.2 ((hasType s (method ++ "Response") _ c₁).run.mono ?_ fun _ _ _ => trivial)
    rintro type c' ⟨-, hrun⟩
    exact .of_counts hanswered hcounts ⟨_, c₁, hc, hrun⟩

theorem wp_convertOperation (d : Document) (verb : Verb) (path : String) (shared : List Parameter)
    (o : Operation) (l : Location) (c : Catalog) :
    wp (d.convertOperation verb path shared o l) c
      (fun made c' => ∃ responses, d.Declares o.responses responses ∧
        Schema.Returned (responses.map fun e => (e.1, e.2.node?))
          (·.Becomes (methodName o.id verb path ++ "Response") c c') made.response)
      fun _ _ => True := by
  refine (hoists_convertParameters _ _ _ _).before fun inherited c₁ hc₁ _ => ?_
  refine (hoists_convertParameters _ _ _ _).before fun own c₂ hc₂ _ => ?_
  refine (convertResponses_yields d o.responses l).before fun responses c₃ hc₃ hresponses => ?_
  have hreturned := wp_returned (methodName o.id verb path) responses l ((hc₁.trans hc₂).trans hc₃)
  exact wp_bind.2 (hreturned.imp fun response c' hresponse => ⟨responses, hresponses, hresponse⟩)

end Swagger

/-! ## OpenAPI 3 -/

namespace OpenApi

/-- The schema of a response, if its content has one. -/
def Response.node? (r : Response) : Option Node := (Content.schema? r.content).map (.openApi ·.2)

theorem convertResponses_yields (d : Document) (responses : List (String × OrReference Response))
    (l : Location) : Yields (d.convertResponses responses l) (d.Declares responses) :=
  .mapM fun _ _ => (Yields.of_unchanged (wp_follow_reaches _ _ _ _)).map fun _ hr => ⟨rfl, hr⟩

theorem wp_returned (method : String) (responses : List (String × Response)) (l : Location)
    {c c₁ : Catalog} (hc : c.Hoists c₁) :
    wp (returned method responses l) c₁
      (fun result c' => Schema.Returned (responses.map fun e => (e.1, e.2.node?))
        (·.Becomes (method ++ "Response") c c') (result.map (·.1)))
      fun _ _ => True := by
  have hclasses : (responses.map fun e =>
      (ResponseClass.ofKey e.1, (Content.schema? e.2.content).isSome)) =
        Schema.classes (responses.map fun e => (e.1, e.2.node?)) := by
    simp [Schema.classes, Response.node?]
  unfold returned
  dsimp only
  rw [hclasses]
  cases hselect : selectResponse (Schema.classes (responses.map fun e => (e.1, e.2.node?))) with
  | none => exact .of_not_answered (Schema.not_answered_of_selectResponse hselect)
  | some selected =>
    obtain ⟨index, optional⟩ := selected
    obtain ⟨key, r, s, hget, hnode, hanswered, hcounts⟩ := Schema.exists_of_selectResponse hselect
    obtain ⟨⟨media, s⟩, hs, rfl⟩ := Option.map_eq_some_iff.1 hnode
    simp only [hget, hs]
    refine wp_bind.2 ((hasType s (method ++ "Response") _ c₁).run.mono ?_ fun _ _ _ => trivial)
    rintro type c' ⟨-, hrun⟩
    exact .of_counts hanswered hcounts ⟨_, c₁, hc, hrun⟩

/-- The end of the conversion of an operation, whatever else is put into it. -/
theorem wp_answered (d : Document) (o : Operation) (method : String) (l : Location)
    {f : Option (Schema.Response × List String) → Schema.Operation}
    (hf : ∀ result, (f result).response = result.map (·.1)) {c c₁ : Catalog} (hc : c.Hoists c₁) :
    wp (do
      let responses ← d.convertResponses o.responses l
      let result ← returned method responses l
      pure (f result)) c₁
      (fun made c' => ∃ responses, d.Declares o.responses responses ∧
        Schema.Returned (responses.map fun e => (e.1, e.2.node?))
          (·.Becomes (method ++ "Response") c c') made.response)
      fun _ _ => True := by
  refine (convertResponses_yields d o.responses l).before fun responses c₂ hc₂ hresponses => ?_
  refine wp_bind.2 ((wp_returned method responses l (hc.trans hc₂)).imp fun result c' hreturned => ?_)
  refine ⟨responses, hresponses, ?_⟩
  rwa [hf]

theorem wp_convertOperation (d : Document) (verb : Verb) (path : String)
    (shared : List (OrReference Parameter)) (o : Operation) (c : Catalog) :
    wp (d.convertOperation verb path shared o) c
      (fun made c' => ∃ responses, d.Declares o.responses responses ∧
        Schema.Returned (responses.map fun e => (e.1, e.2.node?))
          (·.Becomes (methodName o.id verb path ++ "Response") c c') made.response)
      fun _ _ => True := by
  unfold Document.convertOperation
  refine (hoists_convertParameters _ _ _ _).before fun inherited c₁ hc₁ _ => ?_
  refine (hoists_convertParameters _ _ _ _).before fun own c₂ hc₂ _ => ?_
  dsimp only
  split
  · refine (hoists_convertBody _ _ _ _).before fun body c₃ hc₃ _ => ?_
    exact wp_answered d o _ _ (fun _ => rfl) ((hc₁.trans hc₂).trans hc₃)
  · refine (Hoists.pure _).before fun body c₃ hc₃ _ => ?_
    exact wp_answered d o _ _ (fun _ => rfl) ((hc₁.trans hc₂).trans hc₃)

end OpenApi

/-! ## Both dialects -/

namespace Source

/-- An operation as a document declares it, with the parameters of its path. -/
inductive Operation where
  | swagger (d : Swagger.Document) (shared : List Swagger.Parameter) (o : Swagger.Operation)
      (l : Location)
  | openApi (d : OpenApi.Document) (shared : List (OpenApi.OrReference OpenApi.Parameter))
      (o : OpenApi.Operation)

namespace Operation

def id : Operation → Option String
  | .swagger _ _ o _ => o.id
  | .openApi _ _ o   => o.id

def convert (verb : Verb) (path : String) : Operation → Schema.Conversion Schema.Operation
  | .swagger d shared o l => d.convertOperation verb path shared o l
  | .openApi d shared o   => d.convertOperation verb path shared o

/-- The responses of the operation with all references followed, and the schemas that they have. -/
def Declares : Operation → List (String × Option Node) → Prop
  | .swagger d _ o _, declared => ∃ responses,
    d.Declares o.responses responses ∧ declared = responses.map fun e => (e.1, e.2.node?)
  | .openApi d _ o,   declared => ∃ responses,
    d.Declares o.responses responses ∧ declared = responses.map fun e => (e.1, e.2.node?)

variable {w : Operation} {verb : Verb} {path : String} {c c' : Catalog} {made : Schema.Operation}

/-- An operation returns something exactly if a response under a status of success has a schema, or
there is no such status and the fallback has a schema. It returns the type of the first success with a
schema, or else that of the fallback, which may be missing if some success has no schema or it is that
of the fallback. -/
theorem response_selected (h : (w.convert verb path).run c = (.ok made, c')) :
    ∃ declared, w.Declares declared ∧ Schema.Returned declared
      (·.Becomes (methodName w.id verb path ++ "Response") c c') made.response := by
  cases w with
  | swagger d shared o l =>
    obtain ⟨responses, hresponses, hreturned⟩ :=
      (Swagger.wp_convertOperation d verb path shared o l c).of_ok h
    exact ⟨_, ⟨responses, hresponses, rfl⟩, hreturned⟩
  | openApi d shared o =>
    obtain ⟨responses, hresponses, hreturned⟩ :=
      (OpenApi.wp_convertOperation d verb path shared o c).of_ok h
    exact ⟨_, ⟨responses, hresponses, rfl⟩, hreturned⟩

/-- A response in JSON. -/
def jsonResponse (kind : OpenApi.Kind OpenApi.Schema) : OpenApi.Response :=
  ⟨[("application/json", ⟨some (.item ⟨false, none, kind⟩)⟩)]⟩

/-- An operation that returns a number, unless there is nothing to count. -/
def petCount : Operation :=
  .openApi ⟨"Pets", [], ∅, { responses := [("Nothing", .item ⟨[]⟩)] }⟩ []
    { id := none, summary := none, description := none, deprecated := false, parameters := []
      requestBody := none
      responses := [("404", .item (jsonResponse .boolean)),
        ("204", .reference "#/components/responses/Nothing"), ("200", .item (jsonResponse .integer)),
        ("default", .item (jsonResponse .number))] }

theorem petCount_selected : ∃ made c',
    (petCount.convert .get "/pets/count").run (.withNames []) = (.ok made, c') ∧
    made.response = some ⟨.primitive "integer" none [], true⟩ ∧
    ∃ declared, petCount.Declares declared ∧ Schema.Returned declared
      (·.Becomes (methodName none .get "/pets/count" ++ "Response") (.withNames []) c')
      made.response := by
  have hrun : ((petCount.convert .get "/pets/count").run (.withNames [])).1.map (·.response) =
      .ok (some ⟨.primitive "integer" none [], true⟩) := by
    decide +kernel
  obtain ⟨made, hmade, hresponse⟩ := map_eq_ok_iff.1 hrun
  have hrun : (petCount.convert .get "/pets/count").run (.withNames []) = (.ok made, _) :=
    Prod.ext hmade rfl
  exact ⟨made, _, hrun, hresponse, response_selected hrun⟩

end Operation

end Source

end TypedClient
