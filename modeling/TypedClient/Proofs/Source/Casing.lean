import Mathlib
import TypedClient.Proofs.Source.Names

/-!
# How identifiers begin

A name in camel case begins with a capital or a digit, and an identifier never with a digit. So no
identifier of a model is a type that the source has for primitives or collections, which all begin
with a lower case letter or are taken.
-/

namespace TypedClient

/-! ## Camel case -/

namespace Text

variable {c : Char} {cs word w : List Char} {run : CaseRun}

theorem isAlphanum_toUpper (h : c.isAlphanum) : c.toUpper.isAlphanum := by
  by_cases hlower : c.isLower
  · simp [Char.isAlphanum, Char.isAlpha, hlower]
  · rwa [Char.toUpper_eq_of_not_isLower hlower]

theorem isAlphanum_toLower (h : c.isAlphanum) : c.toLower.isAlphanum := by
  by_cases hupper : c.isUpper
  · simp [Char.isAlphanum, Char.isAlpha, hupper]
  · rwa [Char.toLower_eq_of_not_isUpper hupper]

theorem isAlphanum_of_mem_run (h : w ∈ alphanumericRuns word cs)
    (hword : ∀ c ∈ word, c.isAlphanum) : ∀ c ∈ w, c.isAlphanum := by
  induction cs generalizing word with
  | nil =>
    simp only [alphanumericRuns, List.mem_singleton] at h
    simpa [h] using hword
  | cons next cs ih =>
    rw [alphanumericRuns] at h
    split at h
    · rename_i hnext
      exact ih h (List.forall_mem_cons.2 ⟨hnext, hword⟩)
    · rcases List.mem_cons.1 h with rfl | h
      · simpa using hword
      · exact ih h (by simp)

/-- The words that a run is split into have the characters of the run. -/
theorem mem_of_mem_splitCase (h : w ∈ splitCase run word cs) (hc : c ∈ w) : c ∈ word ∨ c ∈ cs := by
  fun_induction splitCase run word cs with grind

theorem isAlphanum_of_mem_word (h : w ∈ words cs) : ∀ c ∈ w, c.isAlphanum := by
  obtain ⟨run, hrun, h⟩ := List.mem_flatMap.1 h
  intro c hc
  have hmem := (mem_of_mem_splitCase h hc).resolve_left List.not_mem_nil
  exact isAlphanum_of_mem_run hrun (by simp) c hmem

theorem isAlphanum_of_mem_upperCamelChars (h : c ∈ upperCamelChars cs) : c.isAlphanum := by
  obtain ⟨w, hw, hc⟩ := List.mem_flatMap.1 h
  have hw := isAlphanum_of_mem_word hw
  cases w with
  | nil => exact absurd hc List.not_mem_nil
  | cons first rest =>
    rcases List.mem_cons.1 hc with rfl | hc
    · exact isAlphanum_toUpper (hw first List.mem_cons_self)
    · obtain ⟨lower, hlower, rfl⟩ := List.mem_map.1 hc
      exact isAlphanum_toLower (hw lower (List.mem_cons_of_mem _ hlower))

/-- A name in camel case begins with a capital or a digit. -/
theorem isLower_of_head?_upperCamelChars (h : (upperCamelChars cs).head? = some c) :
    c.isLower = false := by
  unfold upperCamelChars at h
  generalize words cs = ws at h
  induction ws with
  | nil => cases h
  | cons w ws ih =>
    rw [List.flatMap_cons] at h
    cases w with
    | nil => exact ih h
    | cons first rest =>
      obtain rfl : first.toUpper = c := Option.some.inj h
      exact Char.isLower_toUpper_eq_false first

end Text

namespace Source

variable {s base fallback name : String} {models : List Model} {c : Client}

/-- The text begins with something else than a lower case letter. -/
def Capitalized (s : String) : Prop := ∃ c, s.toList.head? = some c ∧ c.isLower = false

instance (s : String) : Decidable (Capitalized s) :=
  decidable_of_iff (s.toList.head?.any (!·.isLower)) (by simp [Capitalized, Option.any_eq_true])

theorem Capitalized.append (h : Capitalized s) (t : String) : Capitalized (s ++ t) := by
  obtain ⟨c, hc, hlower⟩ := h
  refine ⟨c, ?_, hlower⟩
  rw [String.toList_append, List.head?_append, hc, Option.some_or]

theorem capitalized_identifier (hfallback : Capitalized fallback)
    (hname : ∀ c ∈ name.toList, c.isAlphanum)
    (hfirst : ∀ c, name.toList.head? = some c → c.isLower = false) :
    Capitalized (identifier fallback name) := by
  have hkept : (name.toList.filter fun c => c.isAlphanum || c == '_') = name.toList :=
    List.filter_eq_self.2 fun c hc => by simp [hname c hc]
  have hnamed (hnonempty : name.toList ≠ []) : Capitalized name := by
    obtain ⟨c, hc⟩ := Option.isSome_iff_exists.1 (List.isSome_head?.2 hnonempty)
    exact ⟨c, hc, hfirst c hc⟩
  simp only [identifier, hkept]
  generalize keywords = reserved
  split
  · exact hfallback
  · rename_i hall
    have hnonempty : name.toList ≠ [] := fun hnil => hall (by simp [hnil])
    have hbegin : Capitalized (String.ofList (if name.toList.head?.any Char.isDigit then
        fallback.toList ++ name.toList else name.toList)) := by
      split
      · rw [String.ofList_append, String.ofList_toList]
        exact hfallback.append _
      · rw [String.ofList_toList]
        exact hnamed hnonempty
    generalize String.ofList _ = s at hbegin ⊢
    split
    · exact hbegin.append "_"
    · exact hbegin

theorem capitalized_modelIdentifier (name : String) : Capitalized (modelIdentifier name) := by
  have htoList : (Text.upperCamel name).toList = Text.upperCamelChars name.toList :=
    String.toList_ofList
  apply capitalized_identifier ⟨'M', by decide, by decide⟩
  · intro c hc
    rw [htoList] at hc
    exact Text.isAlphanum_of_mem_upperCamelChars hc
  · intro c hc
    rw [htoList] at hc
    exact Text.isLower_of_head?_upperCamelChars hc

theorem Capitalized.candidate (h : Capitalized base) (suffix : String) (n : Nat) :
    Capitalized (candidate base suffix n) := by
  match n with
  | 0     => exact h
  | 1     => exact h.append _
  | n + 2 => exact (h.append _).append _

/-- The identifier of a model. -/
theorem TypeNames.capitalized_model (h : name ∈ models.map (·.name)) :
    Capitalized ((ofModels models c).model name) := by
  obtain ⟨base, hbase, n, hcandidate⟩ :=
    exists_candidate_of_mem_distinctFrom (model_mem_identifiers h)
  obtain ⟨key, -, rfl⟩ := List.mem_map.1 hbase
  rw [hcandidate]
  exact (capitalized_modelIdentifier key).candidate "Model" n

end Source

end TypedClient
