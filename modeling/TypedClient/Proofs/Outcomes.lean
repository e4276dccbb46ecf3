import Mathlib.Data.List.Nodup
import TypedClient.Client.Method
import TypedClient.Proofs.Run

/-!
# What becomes of operations

Operations are gone through in order, and each one has an outcome. It depends on the operations
before only by the names that their methods have taken, and an operation that is skipped takes no
name. So leaving out a skipped operation changes nothing for all others.
-/

namespace TypedClient

open Schema (Operation)

namespace Outcome

variable {t : TypeTable} {taken taken' : List String} {o : Operation} {os os' : List Operation}
  {outcome : Outcome} {outcomes : List Outcome} {name : String} {e : Failure}

/-- The names of the methods among outcomes. -/
def names (outcomes : List Outcome) : List String :=
  (outcomes.filterMap method?).map (·.name)

theorem names_singleton (outcome : Outcome) :
    names [outcome] = outcome.method?.toList.map (·.name) := by
  cases outcome <;> rfl

theorem names_cons (outcome : Outcome) (outcomes : List Outcome) :
    names (outcome :: outcomes) = names [outcome] ++ names outcomes := by
  cases outcome <;> rfl

/-! ## One operation -/

/-- What becomes of an operation when the methods before it have the names `taken`. -/
inductive Decides (t : TypeTable) (taken : List String) (o : Operation) : Outcome → Prop where
  | generated {m : Method} (hm : Method.ofOperation t o = .ok m) (hnew : m.name ∉ taken) :
      Decides t taken o (.generated m)
  | unsupported {obstacle : Obstacle} (h : Method.ofOperation t o = .error (.skip obstacle)) :
      Decides t taken o (.skipped ⟨o.label, obstacle.message⟩)
  | taken {m : Method} (hm : Method.ofOperation t o = .ok m) (htaken : m.name ∈ taken) :
      Decides t taken o (.skipped ⟨o.label, (Obstacle.takenName m.name).message⟩)

theorem ofOperation_eq_ok_iff : ofOperation t taken o = .ok outcome ↔ Decides t taken o outcome := by
  unfold ofOperation
  constructor
  · intro h
    split at h
    · rename_i m hm
      split at h
      · rename_i htaken
        cases h
        exact .taken hm htaken
      · rename_i hnew
        cases h
        exact .generated hm hnew
    · rename_i obstacle hobstacle
      cases h
      exact .unsupported hobstacle
    · cases h
  · intro h
    cases h with
    | generated hm hnew => simp [hm, hnew]
    | unsupported hobstacle => simp [hobstacle]
    | taken hm htaken => simp [hm, htaken]

theorem ofOperation_eq_error_iff : ofOperation t taken o = .error e ↔
    Method.ofOperation t o = .error (.fatal e) := by
  unfold ofOperation
  constructor
  · intro h
    split at h
    · split at h <;> cases h
    · cases h
    · rename_i hfatal
      cases h
      exact hfatal
  · intro h
    rw [h]

/-- Only what is fatal has no outcome. -/
theorem exists_decides_iff :
    (∃ outcome, Decides t taken o outcome) ↔ ∀ e, Method.ofOperation t o ≠ .error (.fatal e) := by
  simp only [← ofOperation_eq_ok_iff, ne_eq, ← @ofOperation_eq_error_iff t taken o]
  cases ofOperation t taken o <;> simp

/-- It matters which names are taken, not how often or in which order. -/
theorem Decides.congr (h : Decides t taken o outcome) (htaken : ∀ name, name ∈ taken ↔ name ∈ taken') :
    Decides t taken' o outcome := by
  cases h with
  | generated hm hnew => exact .generated hm (mt (htaken _).2 hnew)
  | unsupported hobstacle => exact .unsupported hobstacle
  | taken hm hname => exact .taken hm ((htaken _).1 hname)

/-! ## All operations -/

theorem ofOperations_cons_eq_ok_iff : ofOperations t taken (o :: os) = .ok outcomes ↔
    ∃ outcome rest, Decides t taken o outcome ∧
      ofOperations t (names [outcome] ++ taken) os = .ok rest ∧ outcomes = outcome :: rest := by
  simp only [ofOperations, bind_eq_ok_iff, ofOperation_eq_ok_iff, names_singleton,
    Except.ok.injEq, exists_and_left, eq_comm (b := outcomes)]

theorem ofOperations_cons_eq_error_iff : ofOperations t taken (o :: os) = .error e ↔
    Method.ofOperation t o = .error (.fatal e) ∨
      ∃ outcome, Decides t taken o outcome ∧
        ofOperations t (names [outcome] ++ taken) os = .error e := by
  simp only [ofOperations, bind_eq_error_iff, ofOperation_eq_ok_iff, ofOperation_eq_error_iff,
    names_singleton, reduceCtorEq, and_false, exists_false, or_false]

/-- The first operation that is fatal makes all fail, whatever the outcomes before it are. -/
theorem ofOperations_eq_error_iff : ofOperations t taken os = .error e ↔
    ∃ past o future, os = past ++ o :: future ∧
      (∀ o' ∈ past, ∀ e', Method.ofOperation t o' ≠ .error (.fatal e')) ∧
      Method.ofOperation t o = .error (.fatal e) := by
  induction os generalizing taken with
  | nil => simp [ofOperations]
  | cons o os ih =>
    rw [ofOperations_cons_eq_error_iff]
    constructor
    · rintro (h | ⟨outcome, hdecides, h⟩)
      · exact ⟨[], o, os, rfl, List.forall_mem_nil _, h⟩
      · obtain ⟨past, o', future, rfl, hpast, h⟩ := ih.1 h
        exact ⟨o :: past, o', future, rfl,
          List.forall_mem_cons.2 ⟨exists_decides_iff.1 ⟨outcome, hdecides⟩, hpast⟩, h⟩
    · rintro ⟨past, o', future, heq, hpast, h⟩
      cases past with
      | nil =>
        obtain ⟨rfl, -⟩ := List.cons.inj heq
        exact .inl h
      | cons first past =>
        obtain ⟨rfl, rfl⟩ := List.cons.inj heq
        obtain ⟨hfirst, hpast⟩ := List.forall_mem_cons.1 hpast
        obtain ⟨outcome, hdecides⟩ := exists_decides_iff.2 hfirst
        exact .inr ⟨outcome, hdecides, ih.2 ⟨past, o', future, rfl, hpast, h⟩⟩

theorem ofOperations_congr (h : ofOperations t taken os = .ok outcomes)
    (htaken : ∀ name, name ∈ taken ↔ name ∈ taken') : ofOperations t taken' os = .ok outcomes := by
  induction os generalizing taken taken' outcomes with
  | nil => exact h
  | cons o os ih =>
    obtain ⟨outcome, rest, hdecides, hrest, rfl⟩ := ofOperations_cons_eq_ok_iff.1 h
    refine ofOperations_cons_eq_ok_iff.2 ⟨outcome, rest, hdecides.congr htaken, ?_, rfl⟩
    apply ih hrest
    intro name
    rw [List.mem_append, List.mem_append, htaken]

/-- Operations that follow others are decided as if the names of those had been taken before. -/
theorem ofOperations_append_eq_ok_iff : ofOperations t taken (os ++ os') = .ok outcomes ↔
    ∃ before after, ofOperations t taken os = .ok before ∧
      ofOperations t (names before ++ taken) os' = .ok after ∧ outcomes = before ++ after := by
  induction os generalizing taken outcomes with
  | nil => simp [ofOperations, names]
  | cons o os ih =>
    have hnames (outcome : Outcome) (before : List Outcome) (name : String) :
        name ∈ names before ++ (names [outcome] ++ taken) ↔
          name ∈ names (outcome :: before) ++ taken := by
      rw [names_cons outcome before]
      simp only [List.mem_append]
      rw [or_left_comm, or_assoc]
    rw [List.cons_append, ofOperations_cons_eq_ok_iff]
    constructor
    · rintro ⟨outcome, rest, hdecides, hrest, rfl⟩
      obtain ⟨before, after, hbefore, hafter, rfl⟩ := ih.1 hrest
      refine ⟨outcome :: before, after, ?_, ?_, rfl⟩
      · exact ofOperations_cons_eq_ok_iff.2 ⟨outcome, before, hdecides, hbefore, rfl⟩
      · exact ofOperations_congr hafter (hnames outcome before)
    · rintro ⟨_, after, hbefore, hafter, rfl⟩
      obtain ⟨outcome, before, hdecides, hrest, rfl⟩ := ofOperations_cons_eq_ok_iff.1 hbefore
      refine ⟨outcome, before ++ after, hdecides, ih.2 ⟨before, after, hrest, ?_, rfl⟩, rfl⟩
      exact ofOperations_congr hafter fun name => (hnames outcome before name).symm

theorem exists_decides_of_mem (h : ofOperations t taken os = .ok outcomes) (ho : o ∈ os) :
    ∃ taken' outcome, outcome ∈ outcomes ∧ Decides t taken' o outcome := by
  obtain ⟨past, future, rfl⟩ := List.append_of_mem ho
  obtain ⟨before, rest, -, hrest, rfl⟩ := ofOperations_append_eq_ok_iff.1 h
  obtain ⟨outcome, after, hdecides, -, rfl⟩ := ofOperations_cons_eq_ok_iff.1 hrest
  exact ⟨_, outcome, List.mem_append_right _ List.mem_cons_self, hdecides⟩

theorem length_ofOperations (h : ofOperations t taken os = .ok outcomes) :
    outcomes.length = os.length := by
  induction os generalizing taken outcomes with
  | nil =>
    cases h
    rfl
  | cons o os ih =>
    obtain ⟨outcome, rest, -, hrest, rfl⟩ := ofOperations_cons_eq_ok_iff.1 h
    rw [List.length_cons, List.length_cons, ih hrest]

/-- No method has a name that was taken, or that of another method. -/
theorem nodup_names (h : ofOperations t taken os = .ok outcomes) (htaken : taken.Nodup) :
    (names outcomes ++ taken).Nodup := by
  induction os generalizing taken outcomes with
  | nil =>
    cases h
    exact htaken
  | cons o os ih =>
    obtain ⟨outcome, rest, hdecides, hrest, rfl⟩ := ofOperations_cons_eq_ok_iff.1 h
    have hperm : (names (outcome :: rest) ++ taken).Perm
        (names rest ++ (names [outcome] ++ taken)) := by
      rw [names_cons outcome rest, List.append_assoc]
      exact List.perm_append_comm_assoc _ _ _
    rw [hperm.nodup_iff]
    apply ih hrest
    cases hdecides with
    | generated hm hnew => exact List.nodup_cons.2 ⟨hnew, htaken⟩
    | unsupported => exact htaken
    | taken => exact htaken

end Outcome

namespace TypeTable

variable {t : TypeTable} {os : List Operation} {methods : List Method} {skipped : List Skipped}
  {e : Failure}

theorem methods_eq_error_iff : t.methods os = .error e ↔
    ∃ past o future, os = past ++ o :: future ∧
      (∀ o' ∈ past, ∀ e', Method.ofOperation t o' ≠ .error (.fatal e')) ∧
      Method.ofOperation t o = .error (.fatal e) := by
  rw [TypeTable.methods, map_eq_error_iff, Outcome.ofOperations_eq_error_iff]

/-- Each operation has one outcome, which is a method or an entry among the skipped ones, in the order
of the operations. No two methods have one name, and only a method before it can take the name of an
operation that is supported. Without an operation that is skipped all others have the same
outcomes. -/
theorem methods_account (h : t.methods os = .ok (methods, skipped)) :
    (methods.map (·.name)).Nodup ∧
    ∃ outcomes : List Outcome, outcomes.length = os.length ∧
      outcomes.filterMap Outcome.method? = methods ∧
      outcomes.filterMap Outcome.skipped? = skipped ∧
      ∀ past o future, os = past ++ o :: future →
        ∃ before outcome after, outcomes = before ++ outcome :: after ∧
          before.length = past.length ∧
          Outcome.Decides t (Outcome.names before) o outcome ∧
          (∀ s, outcome = .skipped s → t.methods (past ++ future) =
            .ok (methods, before.filterMap Outcome.skipped? ++ after.filterMap Outcome.skipped?)) := by
  obtain ⟨outcomes, houtcomes, heq⟩ := map_eq_ok_iff.1 h
  cases heq
  refine ⟨?_, outcomes, Outcome.length_ofOperations houtcomes, rfl, rfl, ?_⟩
  · have hnodup := Outcome.nodup_names houtcomes List.nodup_nil
    rwa [List.append_nil] at hnodup
  · rintro past o future rfl
    obtain ⟨before, _, hbefore, hrest, rfl⟩ := Outcome.ofOperations_append_eq_ok_iff.1 houtcomes
    obtain ⟨outcome, after, hdecides, hafter, rfl⟩ := Outcome.ofOperations_cons_eq_ok_iff.1 hrest
    rw [List.append_nil] at hdecides
    refine ⟨before, outcome, after, rfl, Outcome.length_ofOperations hbefore, hdecides, ?_⟩
    rintro s rfl
    -- what is skipped adds no name, so that the rest goes on from where it was before
    have hremoved : Outcome.ofOperations t [] (past ++ future) = .ok (before ++ after) :=
      Outcome.ofOperations_append_eq_ok_iff.2 ⟨before, after, hbefore, hafter, rfl⟩
    rw [methods, hremoved]
    simp only [Except.map, List.filterMap_append]
    rfl

/-- An operation that gets something. -/
def fetch (path : String) (parameters : List Schema.Parameter) : Operation :=
  { verb := .get
    path
    id := some "fetch"
    summary := none
    description := none
    deprecated := false
    parameters
    requestMedia := []
    response := none
    responseMedia := [] }

/-- An operation that reads a cookie, which no method can do. -/
def cookieFetch : Operation :=
  fetch "/a" [
    { name := "session", carrier := .cookie, type := .any, required := true, description := none }]

/-- Of three operations of one name the second one has the method, also when the first one is left
out. -/
theorem cookieFetch_skipped : ∃ methods skipped,
    empty.methods [cookieFetch, fetch "/b" [], fetch "/c" []] = .ok (methods, skipped) ∧
    methods.map (·.path) = ["/b"] ∧
    skipped.map (·.operation) = ["GET /a (fetch)", "GET /c (fetch)"] ∧
    empty.methods [fetch "/b" [], fetch "/c" []] = .ok (methods, skipped.tail) := by
  have hrun : (empty.methods [cookieFetch, fetch "/b" [], fetch "/c" []]).map
      (fun r => (r.1.map (·.path), r.2.map (·.operation))) =
      .ok (["/b"], ["GET /a (fetch)", "GET /c (fetch)"]) := by
    decide +kernel
  obtain ⟨⟨methods, skipped⟩, hmethods, hlists⟩ := map_eq_ok_iff.1 hrun
  obtain ⟨hpaths, hlabels⟩ := Prod.mk.inj hlists
  obtain ⟨-, outcomes, -, -, hskipped, hall⟩ := methods_account hmethods
  obtain ⟨before, outcome, after, rfl, hlength, hdecides, hremoved⟩ := hall [] _ _ rfl
  obtain rfl : before = [] := List.eq_nil_of_length_eq_zero hlength
  have hcookie (m : Method) : Method.ofOperation empty cookieFetch ≠ .ok m := nofun
  refine ⟨methods, skipped, hmethods, hpaths, hlabels, ?_⟩
  cases hdecides with
  | generated hm => exact absurd hm (hcookie _)
  | taken hm => exact absurd hm (hcookie _)
  | unsupported =>
    rw [← hskipped]
    exact hremoved _ rfl

end TypeTable

end TypedClient
