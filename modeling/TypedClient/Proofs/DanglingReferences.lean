import TypedClient.Proofs.Methods
import TypedClient.Proofs.Outcomes

/-!
# References that lead nowhere

Methods can be made for any operations, not only for those of the document that a table comes from.
Each operation is gone through up to the first thing that keeps it from having a method. If that is a
reference to what is neither a model nor an alias, there is no client at all. Behind an obstacle such a
reference is not seen, and the operation is skipped like any other.
-/

namespace TypedClient

open Schema (Operation)

variable {t : TypeTable} {o : Operation} {os : List Operation} {methods : List Method}
  {skipped : List Skipped} {e : Failure}

/-! ## One operation -/

theorem TypeTable.Dangles.typeOf_ne_ok {type : Schema.TypeRef} {name : String} {v : ValueType}
    (h : t.Dangles type name) : t.typeOf type ≠ .ok v := by
  rw [typeOf_eq_unresolved_iff.2 h]
  exact nofun

/-- Nothing keeps the operation from having a method, references that lead nowhere apart. -/
structure SupportedOtherwise (t : TypeTable) (o : Operation) : Prop where
  parameters : ∀ p ∈ o.parameters, (∃ v, Method.Sends t p v) ∨
    (p.carrier ≠ .formData ∧ p.carrier ≠ .cookie) ∧ ∃ name, t.Dangles p.type name
  oneBody : (bodies o.parameters).length ≤ 1
  requestMedia : bodies o.parameters ≠ [] → AllowsJson o.requestMedia
  responseMedia : ∀ r, o.response = some r → AllowsJson o.responseMedia

namespace Method

/-- Going through the operation ends at the first of its references that lead nowhere. -/
theorem exists_stumbles (h : SupportedOtherwise t o) (hunknown : ¬ t.Knows o) :
    ∃ name part, Stumbles t o name part := by
  classical
  obtain ⟨hparameters, hbodies, hrequest, hresponse⟩ := h
  -- the first parameter that cannot be sent has the reference, or else the response has it
  cases hfirst : o.parameters.find? (¬ ∃ v, Sends t · v) with
  | none =>
    have hall : ∀ p ∈ o.parameters, ∃ v, Sends t p v := by simpa using hfirst
    obtain ⟨type, ⟨p, hp, rfl⟩ | ⟨r, hr, rfl⟩, name, hname⟩ := TypeTable.not_knows_iff.1 hunknown
    · obtain ⟨v, hv⟩ := hall p hp
      exact absurd hv.type hname.typeOf_ne_ok
    · exact ⟨name, _, .response hr hall hbodies hrequest (hresponse r hr) hname⟩
  | some p =>
    obtain ⟨hsends, before, after, heq, hbefore⟩ := List.find?_eq_some_iff_append.1 hfirst
    obtain ⟨hcarrier, name, hname⟩ :=
      (hparameters p (List.mem_of_find?_eq_some hfirst)).resolve_left (by simpa using hsends)
    have hsublist : (before ++ [p]).Sublist o.parameters := by
      rw [heq]
      exact (List.Sublist.refl _).append ((List.nil_sublist _).cons_cons _)
    exact ⟨name, _, .parameter heq (by simpa using hbefore)
      ((hsublist.filter _).length_le.trans hbodies) hcarrier hname⟩

/-- An operation with a reference that leads nowhere has no method. -/
theorem ofOperation_ne_ok {m : Method} (hunknown : ¬ t.Knows o) : ofOperation t o ≠ .ok m := by
  intro h
  obtain ⟨⟨harguments, -, -, hreturns⟩, -⟩ := ofOperation_eq_ok_iff.1 h
  obtain ⟨type, ⟨p, hp, rfl⟩ | ⟨r, hr, rfl⟩, name, hname⟩ := TypeTable.not_knows_iff.1 hunknown
  · obtain ⟨v, hv⟩ := exists_forall₂_isFor_iff.1 ⟨_, harguments⟩ p hp
    exact absurd hv.type hname.typeOf_ne_ok
  · obtain ⟨-, v, hv⟩ := exists_returns_iff.1 ⟨_, hreturns⟩ r hr
    exact absurd hv hname.typeOf_ne_ok

theorem forall_ofOperation_ne_fatal_iff :
    (∀ e, ofOperation t o ≠ .error (.fatal e)) ↔ ∀ name part, ¬ Stumbles t o name part := by
  simp only [ne_eq, ofOperation_eq_fatal_iff, not_exists, not_and]
  constructor
  · intro h name part hstumbles
    exact h _ name part hstumbles rfl
  · intro h e name part hstumbles
    exact absurd hstumbles (h name part)

end Method

/-! ## All operations -/

namespace TypeTable

theorem methods_eq_error_iff_stumbles : t.methods os = .error e ↔
    ∃ past o future name part, os = past ++ o :: future ∧
      (∀ o' ∈ past, ∀ name part, ¬ Method.Stumbles t o' name part) ∧
      Method.Stumbles t o name part ∧ e = .unresolved name (Resolution.partPlace o part) := by
  simp only [methods_eq_error_iff, Method.forall_ofOperation_ne_fatal_iff,
    Method.ofOperation_eq_fatal_iff, exists_and_left]

/-- Where there is a client, an operation with a reference that leads nowhere is among the skipped
ones. -/
theorem exists_skipped (h : t.methods os = .ok (methods, skipped)) (ho : o ∈ os)
    (hunknown : ¬ t.Knows o) : ∃ obstacle, Method.ofOperation t o = .error (.skip obstacle) ∧
      ⟨o.label, obstacle.message⟩ ∈ skipped := by
  obtain ⟨outcomes, houtcomes, heq⟩ := map_eq_ok_iff.1 h
  cases heq
  obtain ⟨taken, outcome, hmem, hdecides⟩ := Outcome.exists_decides_of_mem houtcomes ho
  cases hdecides with
  | generated hm => exact absurd hm (Method.ofOperation_ne_ok hunknown)
  | taken hm => exact absurd hm (Method.ofOperation_ne_ok hunknown)
  | @unsupported obstacle hobstacle =>
    exact ⟨obstacle, hobstacle, List.mem_filterMap.2 ⟨_, hmem, rfl⟩⟩

/-- There is no client exactly where going through some operation ends at a reference that leads
nowhere, and the first such operation is named. One that is supported otherwise has such an end. Any
other operation with such a reference has no method, but is skipped for an obstacle that comes first. -/
theorem dangling_references (t : TypeTable) (os : List Operation) :
    (∀ e, t.methods os = .error e ↔ ∃ past o future name part, os = past ++ o :: future ∧
      (∀ o' ∈ past, ∀ name part, ¬ Method.Stumbles t o' name part) ∧
      Method.Stumbles t o name part ∧ e = .unresolved name (Resolution.partPlace o part)) ∧
    (∀ o ∈ os, ¬ t.Knows o → SupportedOtherwise t o →
      ∃ name place, t.methods os = .error (.unresolved name place)) ∧
    ∀ methods skipped, t.methods os = .ok (methods, skipped) → ∀ o ∈ os, ¬ t.Knows o →
      ∃ obstacle, Method.ofOperation t o = .error (.skip obstacle) ∧
        ⟨o.label, obstacle.message⟩ ∈ skipped := by
  refine ⟨fun e => methods_eq_error_iff_stumbles, fun o ho hunknown hsupported => ?_,
    fun methods skipped h o ho hunknown => exists_skipped h ho hunknown⟩
  cases hmethods : t.methods os with
  | ok r =>
    obtain ⟨obstacle, hobstacle, -⟩ := exists_skipped hmethods ho hunknown
    obtain ⟨name, part, hstumbles⟩ := Method.exists_stumbles hsupported hunknown
    cases hobstacle.symm.trans (Method.ofOperation_eq_fatal_iff.2 ⟨name, part, hstumbles, rfl⟩)
  | error e =>
    obtain ⟨past, o', future, name, part, -, -, -, rfl⟩ := methods_eq_error_iff_stumbles.1 hmethods
    exact ⟨name, _, rfl⟩

/-- A pet to look for, of a type that is declared nowhere. -/
def petParameter : Schema.Parameter :=
  { name := "pet", carrier := .query, type := .reference "Pet", required := false,
    description := none }

/-- The pet comes after a cookie. -/
def cookiePetFetch : Operation := fetch "/a" (cookieFetch.parameters ++ [petParameter])

def petFetch : Operation := fetch "/b" [petParameter]

theorem dangles_pet : empty.Dangles petParameter.type "Pet" :=
  ⟨rfl, List.not_mem_nil, List.not_mem_nil⟩

theorem not_knows_of_petParameter (h : petParameter ∈ o.parameters) : ¬ empty.Knows o :=
  not_knows_iff.2 ⟨_, .inl ⟨_, h, rfl⟩, "Pet", dangles_pet⟩

theorem supportedOtherwise_petFetch : SupportedOtherwise empty petFetch where
  parameters p hp := by
    rw [List.mem_singleton.1 hp]
    exact .inr ⟨by decide, "Pet", dangles_pet⟩
  oneBody := by decide
  requestMedia _ := .inl rfl
  responseMedia _ hr := nomatch hr

theorem methods_cookiePetFetch : empty.methods [cookiePetFetch] =
    .ok ([], [⟨"GET /a (fetch)", "parameter `session` is passed in cookie"⟩]) := by
  decide +kernel

/-- The reference is found in an operation that is supported otherwise, also after one that is
skipped. -/
theorem petFetch_fatal :
    petFetch ∈ [cookiePetFetch, petFetch] ∧ ¬ empty.Knows petFetch ∧
      SupportedOtherwise empty petFetch ∧
      (∃ name place, empty.methods [cookiePetFetch, petFetch] = .error (.unresolved name place)) ∧
    cookiePetFetch ∈ [cookiePetFetch] ∧ ¬ empty.Knows cookiePetFetch ∧
      ∃ skipped, empty.methods [cookiePetFetch] = .ok ([], skipped) ∧
        ∃ obstacle, Method.ofOperation empty cookiePetFetch = .error (.skip obstacle) ∧
          ⟨cookiePetFetch.label, obstacle.message⟩ ∈ skipped := by
  obtain ⟨-, hfatal, -⟩ := dangling_references empty [cookiePetFetch, petFetch]
  obtain ⟨-, -, hskipped⟩ := dangling_references empty [cookiePetFetch]
  have hmem : petFetch ∈ [cookiePetFetch, petFetch] := List.mem_cons_of_mem _ List.mem_cons_self
  have hunknown : ¬ empty.Knows petFetch := not_knows_of_petParameter List.mem_cons_self
  have hcookie : ¬ empty.Knows cookiePetFetch :=
    not_knows_of_petParameter (List.mem_cons_of_mem _ List.mem_cons_self)
  exact ⟨hmem, hunknown, supportedOtherwise_petFetch,
    hfatal petFetch hmem hunknown supportedOtherwise_petFetch, List.mem_cons_self, hcookie, _,
    methods_cookiePetFetch, hskipped _ _ methods_cookiePetFetch _ List.mem_cons_self hcookie⟩

/-- A reference that comes after a cookie is hidden by a diagnostic. -/
theorem cookiePetFetch_hides :
    (∃ o ∈ [cookiePetFetch], ¬ empty.Knows o) ∧
      (¬ ∃ name place, empty.methods [cookiePetFetch] = .error (.unresolved name place)) ∧
      ∃ reason, empty.methods [cookiePetFetch] = .ok ([], [⟨cookiePetFetch.label, reason⟩]) := by
  have hcookie : ¬ empty.Knows cookiePetFetch :=
    not_knows_of_petParameter (List.mem_cons_of_mem _ List.mem_cons_self)
  refine ⟨⟨cookiePetFetch, List.mem_cons_self, hcookie⟩, ?_, _, methods_cookiePetFetch⟩
  rintro ⟨name, place, h⟩
  cases methods_cookiePetFetch.symm.trans h

end TypeTable

end TypedClient
