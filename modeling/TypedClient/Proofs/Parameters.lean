import TypedClient.Proofs.Properties
import TypedClient.Schema.Selection

/-!
# The parameters of a path and of an operation

The parameters of an operation override those of its path. A parameter is told apart by its name and
its carrier together: the one that is overridden keeps its place, and what is new comes last.
-/

namespace TypedClient.Schema

/-- What two parameters have in common when they are one. -/
def Parameter.key (p : Parameter) : String × Carrier := (p.name, p.carrier)

/-- The keys of parameters that the path does not have, each once and in the order in which they come
first. -/
def newKeys (inherited own : List Parameter) : List (String × Carrier) :=
  ((own.map (·.key)).filter (· ∉ inherited.map (·.key))).eraseDups

variable {inherited own ps : List Parameter} {p q : Parameter} {key : String × Carrier}

theorem Parameter.sameAs_iff : p.sameAs q = true ↔ p.key = q.key := by
  simp [sameAs, Parameter.key]

theorem mem_newKeys_iff :
    key ∈ newKeys inherited own ↔ key ∈ own.map (·.key) ∧ key ∉ inherited.map (·.key) := by
  rw [newKeys, List.mem_eraseDups, List.mem_filter, decide_eq_true_iff]

theorem newKeys_append_singleton : newKeys inherited (own ++ [p]) =
    if p.key ∈ inherited.map (·.key) ++ newKeys inherited own then newKeys inherited own
    else newKeys inherited own ++ [p.key] := by
  have hkeys : newKeys inherited (own ++ [p]) =
      ((own.map (·.key)).filter (· ∉ inherited.map (·.key)) ++
        if p.key ∈ inherited.map (·.key) then [] else [p.key]).eraseDups := by
    rw [newKeys, List.map_append, List.filter_append, List.map_singleton, List.filter_singleton]
    by_cases hold : p.key ∈ inherited.map (·.key) <;> simp only [hold] <;> rfl
  rw [hkeys]
  by_cases hold : p.key ∈ inherited.map (·.key)
  · rw [if_pos hold, if_pos (List.mem_append_left _ hold), List.append_nil, newKeys]
  · simp only [List.mem_append, hold, false_or, if_false, newKeys, eraseDups_append_singleton,
      List.mem_eraseDups]

/-! ## One more parameter -/

theorem keys_overrideParameter : (overrideParameter ps p).map (·.key) =
    if p.key ∈ ps.map (·.key) then ps.map (·.key) else ps.map (·.key) ++ [p.key] := by
  fun_induction overrideParameter ps p with
  | case1 => rfl
  | case2 q qs hsame =>
    have hkey := Parameter.sameAs_iff.1 hsame
    simp [hkey]
  | case3 q qs hother ih =>
    have hkey : p.key ≠ q.key := fun heq => hother (Parameter.sameAs_iff.2 heq.symm)
    simp only [List.map_cons, ih, List.mem_cons, hkey, false_or]
    split <;> rfl

/-- The parameter is found under its key, and under any other key what was found before. -/
theorem find?_overrideParameter : (overrideParameter ps p).find? (·.key = key) =
    if p.key = key then some p else ps.find? (·.key = key) := by
  fun_induction overrideParameter ps p with
  | case1 => by_cases hp : p.key = key <;> simp [hp]
  | case2 q qs hsame =>
    have hkey := Parameter.sameAs_iff.1 hsame
    by_cases hp : p.key = key <;> simp [hkey, hp]
  | case3 q qs hother ih =>
    have hkey : q.key ≠ p.key := fun heq => hother (Parameter.sameAs_iff.2 heq)
    by_cases hq : q.key = key
    · have hp : p.key ≠ key := fun heq => hkey (hq.trans heq.symm)
      simp [hq, hp]
    · simp [hq, ih]

/-! ## All parameters -/

theorem mergeParameters_append_singleton :
    mergeParameters inherited (own ++ [p]) = overrideParameter (mergeParameters inherited own) p := by
  simp [mergeParameters]

theorem keys_mergeParameters : (mergeParameters inherited own).map (·.key) =
    inherited.map (·.key) ++ newKeys inherited own := by
  induction own using List.reverseRecOn with
  | nil => exact (List.append_nil _).symm
  | append_singleton own p ih =>
    rw [mergeParameters_append_singleton, keys_overrideParameter, ih, newKeys_append_singleton]
    split
    · rfl
    · rw [List.append_assoc]

theorem find?_mergeParameters : (mergeParameters inherited own).find? (·.key = key) =
    (own.findRev? (·.key = key)).or (inherited.find? (·.key = key)) := by
  induction own using List.reverseRecOn with
  | nil => rfl
  | append_singleton own p ih =>
    rw [mergeParameters_append_singleton, find?_overrideParameter, ih, findRev?_append_singleton]
    by_cases hp : p.key = key <;> simp [hp]

theorem nodup_keys_mergeParameters (h : (inherited.map (·.key)).Nodup) :
    ((mergeParameters inherited own).map (·.key)).Nodup := by
  rw [keys_mergeParameters]
  refine List.nodup_append.2 ⟨h, nodup_eraseDups _, ?_⟩
  rintro key hold _ hnew rfl
  exact (mem_newKeys_iff.1 hnew).2 hold

/-- Under each key the last own parameter is found, or else the first inherited one. The inherited keys
keep their places, the new ones follow, and none is repeated unless the path repeats it. -/
theorem parameters_merged (inherited own : List Parameter) :
    (∀ key, (mergeParameters inherited own).find? (·.key = key) =
      (own.findRev? (·.key = key)).or (inherited.find? (·.key = key))) ∧
    (mergeParameters inherited own).map (·.key) =
      inherited.map (·.key) ++ newKeys inherited own ∧
    ((inherited.map (·.key)).Nodup → ((mergeParameters inherited own).map (·.key)).Nodup) :=
  ⟨fun _ => find?_mergeParameters, keys_mergeParameters, nodup_keys_mergeParameters⟩

/-- A parameter that may stand in several places; the description tells where it comes from. -/
def limitIn (carrier : Carrier) (description : String) : Parameter where
  name := "limit"
  carrier
  type := .primitive "integer" none []
  required := false
  description := some description

def sharedLimits : List Parameter := [limitIn .query "shared", limitIn .path "shared"]

def ownLimits : List Parameter :=
  [limitIn .query "first", limitIn .header "first", limitIn .query "last"]

/-- The limit in the query is overridden twice and keeps its place. -/
theorem limit_overridden : (sharedLimits.map (·.key)).Nodup ∧
    mergeParameters sharedLimits ownLimits =
      [limitIn .query "last", limitIn .path "shared", limitIn .header "first"] ∧
    (mergeParameters sharedLimits ownLimits).find? (·.key = ("limit", .query)) =
      some (limitIn .query "last") ∧
    ((mergeParameters sharedLimits ownLimits).map (·.key)).Nodup := by
  have hshared : (sharedLimits.map (·.key)).Nodup := by decide
  obtain ⟨hfind, -, hnodup⟩ := parameters_merged sharedLimits ownLimits
  exact ⟨hshared, by decide, (hfind _).trans (by decide), hnodup hshared⟩

end TypedClient.Schema
