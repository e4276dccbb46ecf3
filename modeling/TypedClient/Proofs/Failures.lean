import TypedClient.Generation
import TypedClient.Proofs.JsonText
import TypedClient.Proofs.Methods
import TypedClient.Proofs.Outcomes

/-!
# When generation fails

A run stops where its text cannot be loaded, or where the document cannot be resolved. Nothing is
left to fail after that. A resolution ends with a check of all operations, which finds each reference
that a method could stumble over; whatever else a method cannot express makes it skip the operation.
-/

namespace TypedClient

open Schema (Operation)

/-! ## Methods -/

theorem TypeTable.exists_methods {t : TypeTable} {os : List Operation}
    (hknown : ∀ o ∈ os, t.Knows o) : ∃ methods skipped, t.methods os = .ok (methods, skipped) := by
  cases hmethods : t.methods os with
  | ok r => exact ⟨r.1, r.2, rfl⟩
  | error e =>
    obtain ⟨past, o, future, rfl, -, hfatal⟩ := methods_eq_error_iff.1 hmethods
    have ho : o ∈ past ++ o :: future := List.mem_append_right _ List.mem_cons_self
    exact absurd hfatal (Method.ofOperation_ne_fatal (hknown o ho))

/-! ## Resolved documents -/

section Resolve

variable {d : Schema.Document} {t : TypeTable}

/-- The table that a document resolves to knows all that its operations refer to. -/
theorem knows_of_resolve (h : resolve d = .ok t) {o : Operation} (ho : o ∈ d.operations) :
    t.Knows o := by
  obtain ⟨htable, hops⟩ := tabulates_of_resolve h
  intro type htype name hlast
  have hknown := Schema.Document.operationsKnown_iff_has.1 hops o ho type htype name hlast
  exact htable.knows_iff.1 hknown

theorem Resolved.ofText_eq_ok_iff {text : String} {r : Resolved} : ofText text = .ok r ↔
    load text = .ok r.document ∧ resolve r.document = .ok r.table := by
  simp only [ofText, bind_eq_ok_iff, Except.ok.injEq]
  constructor
  · rintro ⟨d, hd, t, ht, rfl⟩
    exact ⟨hd, ht⟩
  · rintro ⟨hd, ht⟩
    exact ⟨r.document, hd, r.table, ht, rfl⟩

theorem Resolved.ofText_eq_error_iff {text : String} {e : Failure} : ofText text = .error e ↔
    load text = .error e ∨ ∃ d, load text = .ok d ∧ resolve d = .error e := by
  simp only [ofText, bind_eq_error_iff, reduceCtorEq, and_false, exists_false, or_false]

end Resolve

/-! ## Runs -/

namespace Settings

variable {s : Settings} {r : Resolved}

/-- A document that is resolved gives a result with any settings. -/
theorem exists_generateFrom (hr : resolve r.document = .ok r.table) :
    ∃ g, s.generateFrom r = .ok g := by
  obtain ⟨methods, skipped, hmethods⟩ :=
    TypeTable.exists_methods fun o ho => knows_of_resolve hr (o := o) ho
  exact ⟨_, bind_eq_ok_iff.2 ⟨_, hmethods, rfl⟩⟩

/-- A run fails exactly with the failure of loading its text or of resolving the document, and no
operation of a document that is resolved stops the client as a whole. -/
theorem generate_stops (s : Settings) (text : String) :
    (∀ e, s.generate text = .error e ↔
      load text = .error e ∨ ∃ d, load text = .ok d ∧ resolve d = .error e) ∧
    ∀ d t, resolve d = .ok t →
      (∀ o ∈ d.operations, ∀ failure, Method.ofOperation t o ≠ .error (.fatal failure)) ∧
      ∃ methods skipped, t.methods d.operations = .ok (methods, skipped) := by
  refine ⟨fun e => ?_, fun d t ht => ⟨fun o ho failure => ?_, ?_⟩⟩
  · rw [generate, bind_eq_error_iff, Resolved.ofText_eq_error_iff, or_iff_left]
    rintro ⟨r, hr, he⟩
    obtain ⟨g, hg⟩ := exists_generateFrom (s := s) (Resolved.ofText_eq_ok_iff.1 hr).2
    cases hg.symm.trans he
  · exact Method.ofOperation_ne_fatal (knows_of_resolve ht ho)
  · exact TypeTable.exists_methods fun o ho => knows_of_resolve ht ho

open Json (record quote)

/-- Pets are sent along with a photo, which is in a form. -/
def photoText : String :=
  record [
    ("swagger", quote "2.0"),
    ("info", record [("title", quote "t"), ("version", quote "v")]),
    ("definitions", record [("Pet", record [("properties", record [("name", record [])])])]),
    ("paths", record [("/pets", record [("post", record [
      ("parameters", "[" ++
        record [("name", quote "photo"), ("in", quote "formData"), ("type", quote "file")] ++ "," ++
        record [("name", quote "pet"), ("in", quote "body"),
          ("schema", record [("$ref", quote "#/definitions/Pet")])] ++ "]"),
      ("responses", record [])])])])]

/-- The document is resolved, and its only operation is skipped. -/
theorem photoText_skipped : ∃ d t, load photoText = .ok d ∧ resolve d = .ok t ∧
    d.operations.map (·.label) = ["POST /pets"] ∧
    ∃ skipped, t.methods d.operations = .ok ([], skipped) := by
  have hrun : ((load photoText).bind fun d => (resolve d).map fun t =>
      (d.operations.map (·.label), ((t.methods d.operations).map (·.1)).toOption)) =
      .ok (["POST /pets"], some []) := by
    rw [load_eq_documentData ?text]
    case text =>
      simp only [photoText, Json.toList_record, Json.toList_quote, String.toList_append, List.map_cons,
        List.map_nil]
      rfl
    decide +kernel
  obtain ⟨d, hd, hrun⟩ := bind_eq_ok_iff.1 hrun
  obtain ⟨t, ht, hrun⟩ := map_eq_ok_iff.1 hrun
  obtain ⟨hlabels, hmethods⟩ := Prod.mk.inj hrun
  obtain ⟨-, methods, skipped, hrun⟩ := (generate_stops {} photoText).2 d t ht
  rw [hrun] at hmethods
  cases hmethods
  exact ⟨d, t, hd, ht, hlabels, skipped, hrun⟩

end Settings

end TypedClient
