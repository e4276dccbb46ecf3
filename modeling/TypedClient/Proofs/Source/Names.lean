import TypedClient.Proofs.FreshName
import TypedClient.Proofs.OrderedMap
import TypedClient.Source.Identifier

/-!
# Distinct identifiers

Names of one scope get identifiers that differ from each other and from those that are taken. So each
model has an identifier of its own, which is neither the one of the client nor that of a type which
all sources have.
-/

namespace TypedClient.Source

/-! ## One scope -/

variable {s base suffix : String} {taken bases : List String}

/-- The candidates after the base differ, whatever the suffix. -/
theorem candidate_succ_injective (base suffix : String) :
    Function.Injective fun n => candidate base suffix (n + 1) :=
  numbered_injective (base ++ suffix)

theorem givenNames_distinctFrom (suffix : String) (taken bases : List String) :
    GivenNames taken (bases.map (candidate · suffix)) (distinctFrom suffix taken bases) := by
  induction bases generalizing taken with
  | nil => exact .nil
  | cons base bases ih =>
    exact .cons (firstFree_freshName taken (candidate_succ_injective base suffix)) (ih _)

/-- Each of the names is a candidate of its base. -/
theorem exists_candidate_of_mem_distinctFrom (h : s ∈ distinctFrom suffix taken bases) :
    ∃ base ∈ bases, ∃ n, s = candidate base suffix n := by
  induction bases generalizing taken with
  | nil => exact absurd h List.not_mem_nil
  | cons base bases ih =>
    rcases List.mem_cons.1 h with rfl | h
    · exact ⟨base, List.mem_cons_self, exists_freshName_eq _ _⟩
    · obtain ⟨base', hmem, hcandidate⟩ := ih h
      exact ⟨base', List.mem_cons_of_mem _ hmem, hcandidate⟩

theorem not_mem_of_mem_distinctFrom (h : s ∈ distinctFrom suffix taken bases) : s ∉ taken :=
  (givenNames_distinctFrom suffix taken bases).not_mem s h

theorem nodup_distinctFrom (suffix : String) (taken bases : List String) :
    (distinctFrom suffix taken bases).Nodup :=
  (givenNames_distinctFrom suffix taken bases).nodup

theorem length_distinctFrom (suffix : String) (taken bases : List String) :
    (distinctFrom suffix taken bases).length = bases.length := by
  rw [(givenNames_distinctFrom suffix taken bases).length_eq, List.length_map]

theorem length_snakeIdentifiers (reserved names : List String) :
    (snakeIdentifiers reserved names).length = names.length := by
  rw [snakeIdentifiers, length_distinctFrom, List.length_map]

/-! ## Models -/

namespace TypeNames

variable {models : List Model} {c : Client} {name a b : String}

/-- The identifiers of models, in order. -/
def identifiers (models : List Model) (c : Client) : List String :=
  distinctFrom "Model" (identifier "Client" (Text.upperCamel c.name) :: Support.names)
    ((models.map (·.name)).map modelIdentifier)

theorem client_ofModels (models : List Model) (c : Client) :
    (ofModels models c).client = identifier "Client" (Text.upperCamel c.name) := by
  simp only [ofModels]

theorem length_identifiers (models : List Model) (c : Client) :
    (models.map (·.name)).length = (identifiers models c).length := by
  rw [identifiers, length_distinctFrom, List.length_map (f := modelIdentifier)]

/-- Exactly the models have identifiers of their own. -/
theorem mem_names_ofModels : name ∈ (ofModels models c).models.names ↔ name ∈ models.map (·.name) := by
  have hnames : ((models.map (·.name)).zip (identifiers models c)).map Prod.fst =
      models.map (·.name) := List.map_fst_zip (Nat.le_of_eq (length_identifiers models c))
  rw [← hnames]
  exact OrderedMap.mem_names_ofList

/-- The entries come from the models; where several models have one name, the last of them gives the
entry. -/
theorem mem_entries_ofModels (h : name ∈ models.map (·.name)) :
    (name, (ofModels models c).model name) ∈ (models.map (·.name)).zip (identifiers models c) := by
  obtain ⟨s, hs⟩ := OrderedMap.mem_names_iff.1 (mem_names_ofModels.2 h)
  rw [model, hs, Option.getD_some]
  exact OrderedMap.mem_ofList (OrderedMap.get?_eq_some_iff.1 hs)

theorem model_mem_identifiers (h : name ∈ models.map (·.name)) :
    (ofModels models c).model name ∈ identifiers models c :=
  (List.of_mem_zip (mem_entries_ofModels h)).2

/-- The identifier of a model is not taken by anything that is no model. -/
theorem model_not_mem (h : name ∈ models.map (·.name)) : (ofModels models c).model name ∉
    identifier "Client" (Text.upperCamel c.name) :: Support.names :=
  not_mem_of_mem_distinctFrom (model_mem_identifiers h)

/-- Models of different names have different identifiers. -/
theorem model_injective (ha : a ∈ models.map (·.name)) (hb : b ∈ models.map (·.name))
    (h : (ofModels models c).model a = (ofModels models c).model b) : a = b := by
  have hnodup : (((models.map (·.name)).zip (identifiers models c)).map Prod.snd).Nodup := by
    rw [List.map_snd_zip (Nat.le_of_eq (length_identifiers models c).symm)]
    exact nodup_distinctFrom _ _ _
  have hentries := List.inj_on_of_nodup_map hnodup (mem_entries_ofModels ha)
    (mem_entries_ofModels hb) h
  exact congrArg Prod.fst hentries

/-- Where models have different names, each has an entry of its own. -/
theorem entries_ofModels (hdistinct : (models.map (·.name)).Nodup) :
    (ofModels models c).models.entries = (models.map (·.name)).zip (identifiers models c) := by
  have hnames := List.map_fst_zip (Nat.le_of_eq (length_identifiers models c))
  apply OrderedMap.entries_ofList
  rw [← hnames] at hdistinct
  exact hdistinct

end TypeNames

/-- A model without fields. -/
def modelNamed (name : String) : Model := { name, description := none, fields := [] }

end TypedClient.Source
