import TypedClient.Proofs.Listing
import TypedClient.Proofs.Resolution.Table

/-!
# Carriers in OpenAPI 3 documents

In OpenAPI 3 a parameter is never the body of a request, which is declared apart. This is what the
decoder of parameters checks, and so it holds of all parameters in a document that is read.
-/

namespace TypedClient

open Schema.Document (exists_of_mem_right)

/-! ## What decoders give -/

namespace Decoder

variable {α : Type} {P Q : α → Prop} {d : Decoder α} {lenient : Bool}

/-- Whatever is decoded has the property. -/
def Gives (d : Decoder α) (P : α → Prop) : Prop := ∀ v a, d v = some a → P a

theorem Gives.optional (h : d.Gives P) : d.optional.Gives fun o => ∀ a, o = some a → P a := by
  rintro v _ hv a rfl
  cases v with
  | null => cases hv
  | _ =>
    obtain ⟨a', ha, heq⟩ := Option.map_eq_some_iff.1 hv
    exact h _ a (Option.some.inj heq ▸ ha)

theorem Gives.list (h : d.Gives P) : (list lenient d).Gives fun as => ∀ a ∈ as, P a := by
  intro v as hv a ha
  obtain ⟨vs, -, has⟩ := Option.bind_eq_some_iff.1 hv
  obtain ⟨v, -, hva⟩ := exists_of_mem_right (forall₂_of_mapM_eq_some has) ha
  exact h v a hva

theorem Gives.dict (h : d.Gives P) : (dict lenient d).Gives fun m => ∀ e ∈ m.entries, P e.2 := by
  intro v m hv e he
  obtain ⟨es, hes, rfl⟩ := Option.map_eq_some_iff.1 hv
  obtain ⟨fs, -, hes⟩ := Option.bind_eq_some_iff.1 hes
  obtain ⟨f, -, hf⟩ := exists_of_mem_right (forall₂_of_mapM_eq_some hes) (OrderedMap.mem_ofList he)
  obtain ⟨a, ha, rfl⟩ := Option.map_eq_some_iff.1 hf
  exact h _ a ha

end Decoder

namespace Fields

variable {α : Type} {P : α → Prop} {fs : Fields} {name : String} {d : Decoder α} {a absent : α}

theorem get_gives (h : d.Gives P) (hget : fs.get name d absent = some a) (habsent : P absent) :
    P a := by
  rw [get] at hget
  split at hget
  · cases hget
    exact habsent
  · exact h _ a hget

theorem need_gives (h : d.Gives P) (hneed : fs.need name d = some a) : P a := by
  obtain ⟨v, -, hv⟩ := Option.bind_eq_some_iff.1 hneed
  exact h v a hv

end Fields

namespace OpenApi

/-! ## Parameters -/

/-- What is written in place has the property. -/
def OrReference.Inline {α : Type} (P : α → Prop) (x : OrReference α) : Prop := ∀ a, x = .item a → P a

/-- The parameter is not the body of a request. -/
def Parameter.Beside (p : Parameter) : Prop := p.carrier ≠ .body

/-- No parameter that is written in the operation is its body. -/
def Operation.Beside (o : Operation) : Prop := ∀ p ∈ o.parameters, p.Inline Parameter.Beside

structure PathItem.Beside (item : PathItem) : Prop where
  parameters : ∀ p ∈ item.parameters, p.Inline Parameter.Beside
  operations : ∀ e ∈ item.operations, e.2.Beside

/-- No parameter of the document is the body of a request. -/
structure Document.Beside (d : Document) : Prop where
  components : ∀ e ∈ d.components.parameters, e.2.Inline Parameter.Beside
  paths : ∀ e ∈ d.paths.entries, e.2.Inline PathItem.Beside

namespace Decoder

open TypedClient.Decoder (Gives)

theorem gives_orReference {α : Type} {P : α → Prop} {item : TypedClient.Decoder α}
    (h : item.Gives P) : (OrReference.decode item).Gives (·.Inline P) := by
  rintro v _ hv a rfl
  rw [OrReference.decode] at hv
  split at hv
  · cases hv
  · obtain ⟨a', ha, heq⟩ := Option.map_eq_some_iff.1 hv
    cases heq
    exact h v a ha

theorem parameter_gives : parameter.Gives Parameter.Beside := by
  intro v p hv
  simp only [parameter, Option.bind_eq_bind, Option.bind_eq_some_iff] at hv
  obtain ⟨fs, -, place, -, ⟨carrier, shapes⟩, hplacement, hv⟩ := hv
  split at hv
  · cases hv
  simp only [Option.bind_eq_some_iff] at hv
  obtain ⟨name, -, required, -, description, -, type, -, hv⟩ := hv
  cases hv
  have hcarrier : ∀ e ∈ placements, e.2.1 ≠ .body := by simp [placements]
  exact hcarrier _ (OrderedMap.mem_of_lookup_eq_some hplacement)

theorem parameters_give {fs : Fields} {ps : List (OrReference Parameter)}
    (h : fs.get "parameters" (TypedClient.Decoder.list false (OrReference.decode parameter)) [] =
      some ps) : ∀ p ∈ ps, p.Inline Parameter.Beside :=
  have hgives := Fields.get_gives (gives_orReference parameter_gives).list h
  hgives (List.forall_mem_nil _)

theorem operation_gives : operation.Gives Operation.Beside := by
  intro v o hv
  rw [operation] at hv
  split at hv
  · cases hv
  obtain ⟨fs, -, hv⟩ := Option.bind_eq_some_iff.1 hv
  rw [operationFields] at hv
  split at hv
  · cases hv
  simp only [Option.bind_eq_bind, Option.bind_eq_some_iff] at hv
  obtain ⟨_, -, _, -, _, -, _, -, parameters, hparameters, _, -, _, -, hv⟩ := hv
  cases hv
  exact parameters_give hparameters

/-- The operations of a path item are those that are declared under the key of a verb. -/
theorem pathItem_gives : pathItem.Gives PathItem.Beside := by
  intro v item hv
  simp only [pathItem, Option.bind_eq_bind, Option.bind_eq_some_iff] at hv
  obtain ⟨fs, -, parameters, hparameters, declared, hdeclared, hv⟩ := hv
  cases hv
  constructor
  · rw [pathItemFields] at hparameters
    split at hparameters
    · cases hparameters
    exact parameters_give hparameters
  · intro e he
    obtain ⟨verb, -, hfound⟩ := List.mem_filterMap.1 he
    have he := List.mem_of_find?_eq_some hfound
    rw [(filterMapM_eq_some hdeclared).1, List.mem_filterMap] at he
    obtain ⟨verb', -, he⟩ := he
    obtain ⟨o, hget, ho⟩ := Option.map_eq_some_iff.1 (Option.join_eq_some_iff.1 he)
    obtain ⟨o, rfl, rfl⟩ := Option.map_eq_some_iff.1 ho
    have hgives := Fields.get_gives operation_gives.optional hget
    exact hgives (by simp) o rfl

/-! ## Documents -/

theorem components_give :
    components.Gives fun c => ∀ e ∈ c.parameters, e.2.Inline Parameter.Beside := by
  intro v c hv
  simp only [components, Option.bind_eq_bind, Option.bind_eq_some_iff] at hv
  obtain ⟨fs, -, hv⟩ := hv
  split at hv
  · cases hv
  simp only [Option.bind_eq_some_iff] at hv
  obtain ⟨_, -, parameters, hparameters, _, -, _, -, hv⟩ := hv
  cases hv
  have hgives := Fields.get_gives (gives_orReference parameter_gives).dict hparameters
  exact hgives (List.forall_mem_nil _)

theorem paths_give : paths.Gives fun items => ∀ e ∈ items.entries, e.2.Inline PathItem.Beside := by
  intro v items hv e he
  obtain ⟨e', -, -, hitem⟩ := exists_of_mem_right (forall₂_paths hv) he
  exact gives_orReference pathItem_gives _ _ hitem

theorem document_gives : document.Gives Document.Beside := by
  intro v d hv
  simp only [document, Option.bind_eq_bind, Option.bind_eq_some_iff] at hv
  obtain ⟨fs, -, hv⟩ := hv
  split at hv
  · cases hv
  simp only [Option.bind_eq_some_iff] at hv
  obtain ⟨_, -, _, -, items, hpaths, cs, hcomponents, hv⟩ := hv
  cases hv
  refine ⟨?_, Fields.need_gives paths_give hpaths⟩
  cases cs with
  | none => exact List.forall_mem_nil _
  | some cs =>
    have hgives := Fields.get_gives components_give.optional hcomponents
    exact hgives (by simp) cs rfl

end Decoder

end OpenApi

/-- A document that is read has no parameter that is a body. -/
theorem Source.beside_of_read {text : String} {d : OpenApi.Document}
    (h : read text = .ok (.openApi d)) : d.Beside := by
  obtain ⟨data, -, hdata⟩ := bind_eq_ok_iff.1 h
  rw [ofData] at hdata
  split at hdata
  · cases hdata
  · split at hdata <;> cases hdata
  · split at hdata
    · rename_i d' hd
      cases hdata
      exact OpenApi.Decoder.document_gives _ _ hd
    · cases hdata

end TypedClient
