import TypedClient.Proofs.Source.Casing
import TypedClient.Proofs.Source.Scope
import TypedClient.Source.Emission

/-!
# Clashes of names

The identifiers of models differ from each other, from the client's and from the types that are kept
in mind; those of parameters differ from the variables of a function. What remains are three ways to a
clash: the identifier of the client is compared with nothing, three traits of the prelude are not kept
in mind for models, nor is the function that encodes a part of a path for parameters.
-/

namespace TypedClient.Source

/-! ## Distinct identifiers -/

variable {s base suffix : String} {taken bases : List String}

theorem freshName_candidate (h : base ∉ taken) : freshName taken (candidate base suffix) = base :=
  @freshName_eq_zero taken (candidate base suffix) h

/-- A base is given away unless it is taken before. -/
theorem mem_distinctFrom_of_mem (h : base ∈ bases) (hfree : base ∉ taken) :
    base ∈ distinctFrom suffix taken bases := by
  induction bases generalizing taken with
  | nil => exact absurd h List.not_mem_nil
  | cons first bases ih =>
    rw [distinctFrom]
    by_cases hgiven : base = freshName taken (candidate first suffix)
    · exact hgiven ▸ List.mem_cons_self
    · rcases List.mem_cons.1 h with rfl | h
      · exact absurd (freshName_candidate hfree).symm hgiven
      · exact List.mem_cons_of_mem _ (ih h (List.not_mem_cons_of_ne_of_not_mem hgiven hfree))

/-- Whoever comes first with a free base has it, if it is nothing that a suffix leads to. -/
theorem exists_mem_zip_distinctFrom_iff {α : Type} {key : α → String} {P : α → Prop}
    (hplain : ∀ base n, candidate base suffix (n + 1) ≠ s) (hfree : s ∉ taken) (as : List α) :
    (∃ x ∈ as.zip (distinctFrom suffix taken (as.map key)), x.2 = s ∧ P x.1) ↔
      ∃ a, as.find? (key · = s) = some a ∧ P a := by
  induction as generalizing taken with
  | nil => simp
  | cons a as ih =>
    rw [List.map_cons, distinctFrom, List.zip_cons_cons]
    by_cases hkey : key a = s
    · have hfirst : freshName taken (candidate (key a) suffix) = s := by
        rw [hkey]
        exact freshName_candidate hfree
      have hrest {x : α × String} {names : List String}
          (hx : x ∈ as.zip (distinctFrom suffix (s :: taken) names)) : x.2 ≠ s := by
        have hmem := (List.of_mem_zip (a := x.1) (b := x.2) hx).2
        exact fun hs => not_mem_of_mem_distinctFrom (hs ▸ hmem) List.mem_cons_self
      rw [hfirst, List.find?_cons_of_pos (by simpa using hkey)]
      constructor
      · rintro ⟨x, hx, hs, hP⟩
        rcases List.mem_cons.1 hx with rfl | hx
        · exact ⟨a, rfl, hP⟩
        · exact absurd hs (hrest hx)
      · rintro ⟨_, ⟨rfl⟩, hP⟩
        exact ⟨(a, s), List.mem_cons_self, rfl, hP⟩
    · have hother : freshName taken (candidate (key a) suffix) ≠ s := by
        obtain ⟨n, hn⟩ := exists_freshName_eq taken (candidate (key a) suffix)
        rw [hn]
        cases n with
        | zero => exact hkey
        | succ n => exact hplain _ n
      rw [List.find?_cons_of_neg (by simpa using hkey),
        ← ih (List.not_mem_cons_of_ne_of_not_mem hother.symm hfree)]
      simp [hother]

/-! ## Types -/

/-- Types and traits that the code uses by their name alone, without a path. -/
def bareNames : List String :=
  ["Result", "Option", "Vec", "String", "Box", "T", "Into", "From", "Sized"]

/-- Those of them that are not kept in mind for models. -/
def preludeTraits : List String := ["Into", "From", "Sized"]

/-- What follows the support code. -/
def items (models : List Model) (c : Client) : List Item :=
  let ns := TypeNames.ofModels models c
  models.flatMap (modelItems ns) ++ clientItems ns c

/-- The functions for the methods of a client. -/
def methodFunctions (ns : TypeNames) (c : Client) : List Function :=
  (c.methods.zip (snakeIdentifiers clientFunctionNames c.methodNames)).map fun (m, name) =>
    methodFunction ns m name

theorem clientItems_eq (ns : TypeNames) (c : Client) : clientItems ns c =
    [.constant [.doc " Base endpoint declared by the schema document."] "DEFAULT_BASE_URL"
        c.baseEndpoint,
      .record (clientRecord ns),
      .implementation {
        bound := some transportBound
        trait := none
        type := .named ns.client [.plain "T"]
        functions := clientFunctions ns ++ methodFunctions ns c }] :=
  rfl

/-- The types and traits that the source declares at its top level. -/
def typeNames (models : List Model) (c : Client) : List String :=
  Support.typeNames ++ (items models c).filterMap Item.typeName?

/-- The identifiers of the models and of the client. -/
def givenNames (models : List Model) (c : Client) : List String :=
  let ns := TypeNames.ofModels models c
  models.map (ns.model ·.name) ++ [ns.client]

theorem support_typeNames_subset : Support.typeNames ⊆ Support.names := by
  rw [Support.typeNames_eq]
  decide

theorem bareNames_subset : bareNames ⊆ Support.names ++ preludeTraits := by decide

theorem preludeTraits_subset : preludeTraits ⊆ bareNames := by decide

/-- No trait of the prelude comes from a suffix. -/
theorem candidate_succ_not_mem (base : String) (n : Nat) :
    candidate base "Model" (n + 1) ∉ preludeTraits := by
  have hmodel : 'M' ∈ (candidate base "Model" (n + 1)).toList := by
    cases n <;> simp [candidate, numbered]
  have htraits : ∀ t ∈ preludeTraits, 'M' ∉ t.toList := by decide
  exact fun h => htraits _ h hmodel

section Models

variable {models : List Model} {c : Client} {m : Model} {header : Option String}

theorem typeNames_eq : typeNames models c = Support.typeNames ++ givenNames models c := by
  have hmodels (ns : TypeNames) : (models.flatMap (modelItems ns)).filterMap Item.typeName? =
      models.map (ns.model ·.name) := by
    induction models with
    | nil => rfl
    | cons m models ih =>
      rw [List.flatMap_cons, List.filterMap_append, ih]
      rfl
  have hclient (ns : TypeNames) : (clientItems ns c).filterMap Item.typeName? = [ns.client] := by
    simp only [clientItems_eq, List.filterMap_cons, List.filterMap_nil, Item.typeName?, clientRecord]
  rw [typeNames, items, List.filterMap_append, hmodels, hclient, givenNames]

theorem firstRepeated?_eq_none_iff {seen ss : List String} :
    firstRepeated? seen ss = none ↔ ss.Nodup ∧ ss.Disjoint seen := by
  induction ss generalizing seen with
  | nil => simp [firstRepeated?]
  | cons s ss ih =>
    rw [firstRepeated?, List.nodup_cons, List.disjoint_cons_left]
    split
    · simp_all
    · rename_i hseen
      rw [ih, List.disjoint_cons_right]
      tauto

/-- No identifier of a model is taken. -/
theorem not_mem_of_mem_map_model (h : s ∈ models.map ((TypeNames.ofModels models c).model ·.name)) :
    s ≠ (TypeNames.ofModels models c).client ∧ s ∉ Support.names := by
  obtain ⟨m, hm, rfl⟩ := List.mem_map.1 h
  have hfree := TypeNames.model_not_mem (c := c) (List.mem_map_of_mem hm)
  rwa [← TypeNames.client_ofModels models c, List.mem_cons, not_or] at hfree

variable (hdistinct : (models.map (·.name)).Nodup)

include hdistinct

theorem map_model : models.map ((TypeNames.ofModels models c).model ·.name) =
    TypeNames.identifiers models c := by
  have hlength := TypeNames.length_identifiers models c
  have hmodel : ∀ x ∈ (models.map (·.name)).zip (TypeNames.identifiers models c),
      (TypeNames.ofModels models c).model x.1 = x.2 := by
    intro x hx
    rw [← TypeNames.entries_ofModels hdistinct] at hx
    rw [TypeNames.model, OrderedMap.get?_eq_some_iff.2 hx, Option.getD_some]
  calc models.map ((TypeNames.ofModels models c).model ·.name)
      = (((models.map (·.name)).zip (TypeNames.identifiers models c)).map Prod.fst).map
          (TypeNames.ofModels models c).model := by
        rw [List.map_fst_zip (Nat.le_of_eq hlength), List.map_map]
        rfl
    _ = ((models.map (·.name)).zip (TypeNames.identifiers models c)).map Prod.snd := by
        rw [List.map_map]
        exact List.map_congr_left hmodel
    _ = TypeNames.identifiers models c := List.map_snd_zip (Nat.le_of_eq hlength.symm)

theorem nodup_map_model : (models.map ((TypeNames.ofModels models c).model ·.name)).Nodup := by
  rw [map_model hdistinct]
  exact nodup_distinctFrom _ _ _

theorem emit_eq : emit models c header =
    .ok ((header.map headerComment).getD "" ++ Support.text ++ printItems (items models c)) := by
  have hnone : firstRepeated? [] (models.map ((TypeNames.ofModels models c).model ·.name)) = none :=
    firstRepeated?_eq_none_iff.2 ⟨nodup_map_model hdistinct, List.disjoint_nil_right _⟩
  simp only [emit, hnone, items]

/-- Only the client may be named as a type of the support code. -/
theorem nodup_typeNames_iff : (typeNames models c).Nodup ↔
    (TypeNames.ofModels models c).client ∉ Support.typeNames := by
  have hsupport : Support.typeNames.Nodup := by
    rw [Support.typeNames_eq]
    decide
  rw [typeNames_eq, givenNames, List.nodup_append', List.nodup_append']
  constructor
  · rintro ⟨-, -, hdisjoint⟩ hclient
    exact hdisjoint hclient (by simp)
  · intro hclient
    refine ⟨hsupport, ⟨nodup_map_model hdistinct, List.nodup_singleton _, ?_⟩, ?_⟩
    · rw [List.disjoint_singleton]
      exact fun hmem => (not_mem_of_mem_map_model hmem).1 rfl
    · intro s hs hgiven
      rcases List.mem_append.1 hgiven with hmodel | hc
      · exact (not_mem_of_mem_map_model hmodel).2 (support_typeNames_subset hs)
      · exact hclient (List.mem_singleton.1 hc ▸ hs)

/-- The client may be named as any of the bare types, a model as one of the traits only. -/
theorem not_bare_iff : (∀ s ∈ givenNames models c, s ∉ bareNames) ↔
    (TypeNames.ofModels models c).client ∉ bareNames ∧
      ∀ m ∈ models, modelIdentifier m.name ∉ preludeTraits := by
  simp only [givenNames, List.forall_mem_append, List.forall_mem_singleton]
  rw [and_comm]
  refine and_congr_right fun hclient => ⟨fun h m hm htrait => ?_, fun h s hs hbare => ?_⟩
  · -- the trait is free, so that a model has it
    have hbare := preludeTraits_subset htrait
    have htraits : ∀ t ∈ preludeTraits, t ∉ Support.names := by decide
    have hfree : modelIdentifier m.name ∉
        (TypeNames.ofModels models c).client :: Support.names := by
      rw [List.mem_cons, not_or]
      refine ⟨fun heq => ?_, htraits _ htrait⟩
      rw [heq] at hbare
      exact hclient hbare
    refine h _ ?_ hbare
    rw [TypeNames.client_ofModels] at hfree
    have hbase : modelIdentifier m.name ∈ (models.map (·.name)).map modelIdentifier :=
      List.mem_map_of_mem (List.mem_map_of_mem hm)
    rw [map_model hdistinct, TypeNames.identifiers]
    exact mem_distinctFrom_of_mem hbase hfree
  · obtain ⟨-, hfree⟩ := not_mem_of_mem_map_model hs
    have htrait := (List.mem_append.1 (bareNames_subset hbare)).resolve_left hfree
    rw [map_model hdistinct] at hs
    obtain ⟨base, hbase, n, rfl⟩ := exists_candidate_of_mem_distinctFrom hs
    cases n with
    | zero =>
      obtain ⟨name, hname, rfl⟩ := List.mem_map.1 hbase
      obtain ⟨m, hm, rfl⟩ := List.mem_map.1 hname
      exact h m hm htrait
    | succ n => exact candidate_succ_not_mem base n htrait

end Models

/-! ## Methods -/

namespace NamedArgument

variable {a : NamedArgument} {arguments : List NamedArgument} {path : Expr} {list : String}

/-- The path of a request binds nothing. -/
theorem locals_foldl_replaceIn (h : path.locals = []) :
    (arguments.foldl replaceIn path).locals = [] := by
  induction arguments generalizing path with
  | nil => exact h
  | cons a arguments ih => exact ih (by simp [replaceIn, h])

/-- The path of a request needs the encoding of an argument, if there is one. -/
theorem mem_callees_foldl_replaceIn_iff : s ∈ (arguments.foldl replaceIn path).callees ↔
    s ∈ path.callees ∨ arguments ≠ [] ∧ s = "encode_path_segment" := by
  induction arguments generalizing path with
  | nil => simp
  | cons a arguments ih =>
    rw [List.foldl_cons, ih]
    simp [replaceIn]
    tauto

theorem locals_pushTo (h : s ∈ (a.pushTo list).locals) : s = "value" := by
  have hpattern : patternNames "Some(value)" = ["value"] := by decide
  unfold pushTo at h
  split at h <;> simp_all [Statement.push]

@[simp] theorem callees_pushTo : (a.pushTo list).callees = [] := by
  unfold pushTo
  split <;> simp [Statement.push]

theorem locals_payload (h : s ∈ a.payload.locals) : s = "payload" ∨ s = "value" := by
  have hbinding : patternNames "payload" = ["payload"] := by decide
  have hsome : patternNames "Some(value) => Some(serde_json::to_vec(value)?)," = ["value"] := by decide
  have hnone : patternNames "None => None," = [] := by decide
  unfold payload at h
  split at h <;> simp_all

theorem callees_payload (h : s ∈ a.payload.callees) : s ∈ ["Some", "serde_json::to_vec"] := by
  have hsome : calledIn "Some(value) => Some(serde_json::to_vec(value)?)," =
    ["Some", "Some", "serde_json::to_vec"] := by decide
  have hnone : calledIn "None => None," = [] := by decide
  unfold payload at h
  split at h <;> simp_all

/-- Only what is in a form or a cookie is no parameter. -/
theorem exists_parameter?_iff (ns : TypeNames) (a : NamedArgument) (s : String) :
    (∃ p, a.parameter? ns = some p ∧ p.name = s) ↔
      a.name = s ∧ a.argument.carrier ≠ .formData ∧ a.argument.carrier ≠ .cookie := by
  unfold parameter?
  cases a.argument.carrier <;> simp

end NamedArgument

variable {ns : TypeNames} {m : Method} {name : String} {arguments : List NamedArgument}

theorem locals_pairs {list : String} (hlist : list ∈ ["query", "headers"])
    (h : s ∈ (pairs list arguments).flatMap Statement.locals) : s ∈ [list, "value"] := by
  have hplain : ∀ list ∈ ["query", "headers"],
      patternNames (list ++ ": Vec<(String, String)>") = [list] := by decide
  have hmutable : ∀ list ∈ ["query", "headers"],
      patternNames ("mut " ++ list ++ ": Vec<(String, String)>") = [list] := by decide
  rw [pairs, List.flatMap_cons, List.mem_append, List.flatMap_map] at h
  rcases h with h | h
  · cases arguments with
    | nil => simp_all [hplain list hlist]
    | cons a arguments => simp_all [hmutable list hlist]
  · obtain ⟨a, -, ha⟩ := List.mem_flatMap.1 h
    simp [NamedArgument.locals_pushTo ha]

theorem callees_pairs {list : String} :
    (pairs list arguments).flatMap Statement.callees = ["Vec::new"] := by
  simp [pairs, List.flatMap_map]

theorem locals_payloadOf (h : s ∈ (payloadOf arguments).locals) : s ∈ ["payload", "value"] := by
  have hbinding : patternNames "payload: Option<Vec<u8>>" = ["payload"] := by decide
  unfold payloadOf at h
  split at h
  · simpa using NamedArgument.locals_payload h
  · simp_all

theorem callees_payloadOf (h : s ∈ (payloadOf arguments).callees) :
    s ∈ ["Some", "serde_json::to_vec"] := by
  unfold payloadOf at h
  split at h
  · exact NamedArgument.callees_payload h
  · simp at h

theorem locals_finish (h : s ∈ (finish m).flatMap Statement.locals) : s = "response" := by
  have hbinding : patternNames "response" = ["response"] := by decide
  unfold finish at h
  split at h
  · simp [sendRequest, Expr.own] at h
  · split at h <;> simp_all [sendRequest, Expr.own]

theorem callees_finish (h : s ∈ (finish m).flatMap Statement.callees) :
    s ∈ ["Ok", "serde_json::from_slice"] := by
  have hreturn : calledIn "return Ok(None);" = ["Ok"] := by decide
  unfold finish at h
  split at h
  · simp_all [sendRequest, Expr.own]
  · split at h <;> simp_all [sendRequest, Expr.own]

/-- The address of a request binds nothing and calls nothing. -/
theorem address_plain :
    (Expr.format "\"\x7b\x7d\x7b\x7d\"" [.own "base_url", .word "path"]).locals = [] ∧
      (Expr.format "\"\x7b\x7d\x7b\x7d\"" [.own "base_url", .word "path"]).callees = [] := by
  simp [Expr.format, Expr.own]

/-- A function binds only names that arguments keep away from. -/
theorem mem_localNames_of_mem_locals (h : s ∈ (methodFunction ns m name).locals) :
    s ∈ localNames := by
  have hpath : patternNames "path" = ["path"] := by decide
  have hurl : patternNames "url" = ["url"] := by decide
  simp only [Function.locals, methodFunction, List.flatMap_append, List.flatMap_cons,
    List.flatMap_nil, List.append_nil, Statement.locals_bind, hpath, hurl, address_plain.1,
    NamedArgument.locals_foldl_replaceIn Expr.locals_word, List.mem_append] at h
  obtain ((((hs | hs) | hs) | hs) | hs) | hs := h
  · rw [List.mem_singleton.1 hs]; decide
  · rw [List.mem_singleton.1 hs]; decide
  · exact (by decide : ["query", "value"] ⊆ localNames) (locals_pairs (by decide) hs)
  · exact (by decide : ["headers", "value"] ⊆ localNames) (locals_pairs (by decide) hs)
  · exact (by decide : ["payload", "value"] ⊆ localNames) (locals_payloadOf hs)
  · rw [locals_finish hs]; decide

theorem map_argument_namedArguments (m : Method) :
    (namedArguments m).map (·.argument) = m.arguments := by
  have hlength : m.arguments.length ≤
      (snakeIdentifiers localNames (m.arguments.map (·.name))).length := by
    simp [length_snakeIdentifiers]
  rw [namedArguments, List.map_map]
  exact List.map_fst_zip hlength

/-- A function encodes the arguments that are in the path. -/
theorem encode_mem_callees_iff (ns : TypeNames) (m : Method) (name : String) :
    "encode_path_segment" ∈ (methodFunction ns m name).callees ↔
      ∃ a ∈ m.arguments, a.carrier = .path := by
  have hpayload {arguments : List NamedArgument} :
      "encode_path_segment" ∉ (payloadOf arguments).callees :=
    fun h => (by decide : "encode_path_segment" ∉ ["Some", "serde_json::to_vec"]) (callees_payloadOf h)
  have hfinish : "encode_path_segment" ∉ (finish m).flatMap Statement.callees :=
    fun h => (by decide : "encode_path_segment" ∉ ["Ok", "serde_json::from_slice"]) (callees_finish h)
  simp only [Function.callees, methodFunction, List.flatMap_append, List.flatMap_cons,
    List.flatMap_nil, List.append_nil, Statement.callees_bind, address_plain.2, callees_pairs,
    List.mem_append, NamedArgument.mem_callees_foldl_replaceIn_iff, hpayload, hfinish]
  rw [← map_argument_namedArguments m]
  simp

theorem exists_parameter_iff : (∃ p ∈ (methodFunction ns m name).parameters, p.name = s) ↔
    ∃ a ∈ namedArguments m, a.name = s ∧ a.argument.carrier ≠ .formData ∧
      a.argument.carrier ≠ .cookie := by
  simp only [← NamedArgument.exists_parameter?_iff ns, methodFunction, List.mem_filterMap]
  constructor
  · rintro ⟨p, ⟨a, ha, hp⟩, hs⟩
    exact ⟨a, ha, p, hp, hs⟩
  · rintro ⟨a, ha, p, hp, hs⟩
    exact ⟨p, ⟨a, ha, hp⟩, hs⟩

theorem parameter_not_mem_localNames {p : Parameter}
    (hp : p ∈ (methodFunction ns m name).parameters) : p.name ∉ localNames := by
  obtain ⟨a, ha, hname, -⟩ := exists_parameter_iff.1 ⟨p, hp, rfl⟩
  obtain ⟨x, hx, rfl⟩ := List.mem_map.1 ha
  rw [← hname]
  exact not_mem_of_mem_distinctFrom (List.of_mem_zip hx).2

/-- No name with a suffix ends as the name of the function does. -/
theorem candidate_succ_ne_encode (base : String) (n : Nat) :
    candidate base "_" (n + 1) ≠ "encode_path_segment" := by
  intro h
  have hlast : (candidate base "_" (n + 1)).toList.getLast? = some 't' := by
    rw [h]
    decide
  cases n with
  | zero => simp [candidate, numbered] at hlast
  | succ n =>
    have hmem : 't' ∈ Nat.toDigits 10 (n + 2) := by
      rw [candidate, numbered, String.toList_append, List.getLast?_append,
        Nat.toString_eq_ofList_toDigits, String.toList_ofList] at hlast
      have hdigits : Nat.toDigits 10 (n + 2) ≠ [] :=
        List.ne_nil_of_length_pos Nat.length_toDigits_pos
      rw [List.getLast?_eq_some_getLast hdigits, Option.some_or] at hlast
      exact Option.some.inj hlast ▸ List.getLast_mem hdigits
    exact absurd (Nat.isDigit_of_mem_toDigits (by decide) (by decide) hmem) (by decide)

/-- There is an argument to encode, and the first one that is named like the function which encodes it
is a parameter. -/
def Captures (m : Method) : Prop :=
  (∃ a ∈ m.arguments, a.carrier = .path) ∧
    ∃ a, m.arguments.find? (snakeIdentifier ·.name = "encode_path_segment") = some a ∧
      a.carrier ≠ .formData ∧ a.carrier ≠ .cookie

theorem exists_captured_iff (ns : TypeNames) (m : Method) (name : String) :
    (∃ p ∈ (methodFunction ns m name).parameters,
      p.name ∈ Support.functionNames ∧ p.name ∈ (methodFunction ns m name).callees) ↔ Captures m := by
  have hfree : "encode_path_segment" ∉ localNames := by decide
  have hnamed : (∃ p ∈ (methodFunction ns m name).parameters, p.name = "encode_path_segment") ↔
      ∃ a, m.arguments.find? (snakeIdentifier ·.name = "encode_path_segment") = some a ∧
        a.carrier ≠ .formData ∧ a.carrier ≠ .cookie := by
    rw [exists_parameter_iff,
      ← exists_mem_zip_distinctFrom_iff candidate_succ_ne_encode hfree m.arguments]
    simp [namedArguments, snakeIdentifiers, Function.comp_def]
  rw [Captures, ← hnamed, ← encode_mem_callees_iff ns m name]
  simp only [Support.functionNames_eq, List.mem_singleton]
  constructor
  · rintro ⟨p, hp, hname, hcalled⟩
    exact ⟨hname ▸ hcalled, p, hp, hname⟩
  · rintro ⟨hcalled, p, hp, hname⟩
    exact ⟨p, hp, hname, hname ▸ hcalled⟩

/-! ## The whole source -/

variable {models : List Model} {c : Client}

theorem forall_methodFunctions_iff {P : Function → Prop} {Q : Method → Prop}
    (h : ∀ m name, P (methodFunction ns m name) ↔ Q m) :
    (∀ f ∈ methodFunctions ns c, P f) ↔ ∀ m ∈ c.methods, Q m := by
  have hlength : c.methods.length ≤
      (snakeIdentifiers clientFunctionNames c.methodNames).length := by
    simp [length_snakeIdentifiers, Client.methodNames]
  have hmethods := List.map_fst_zip hlength
  simp only [methodFunctions, List.forall_mem_map, h]
  rw [← List.forall_mem_map (f := Prod.fst) (P := Q), hmethods]

/-- Every source of models with different names is produced. Names clash in it in three ways only: the
client is named as a type that the source declares or uses, a model as a trait of the prelude, or a
parameter as the function that encodes a part of the path. No parameter is named as a variable. -/
theorem clashes_iff (hdistinct : (models.map (·.name)).Nodup) :
    (∀ header, emit models c header =
      .ok ((header.map headerComment).getD "" ++ Support.text ++ printItems (items models c))) ∧
    ((typeNames models c).Nodup ↔ (TypeNames.ofModels models c).client ∉ Support.typeNames) ∧
    ((∀ s ∈ givenNames models c, s ∉ bareNames) ↔
      (TypeNames.ofModels models c).client ∉ bareNames ∧
        ∀ m ∈ models, modelIdentifier m.name ∉ preludeTraits) ∧
    (∀ f ∈ methodFunctions (.ofModels models c) c, ∀ p ∈ f.parameters, p.name ∉ f.locals) ∧
    ((∀ f ∈ methodFunctions (.ofModels models c) c, ∀ p ∈ f.parameters,
        p.name ∈ Support.functionNames → p.name ∉ f.callees) ↔
      ∀ m ∈ c.methods, ¬ Captures m) := by
  refine ⟨fun header => emit_eq hdistinct, nodup_typeNames_iff hdistinct, not_bare_iff hdistinct,
    ?_, ?_⟩
  · intro f hf p hp hlocal
    obtain ⟨x, -, rfl⟩ := List.mem_map.1 hf
    exact parameter_not_mem_localNames hp (mem_localNames_of_mem_locals hlocal)
  · refine forall_methodFunctions_iff fun m name => ?_
    rw [← exists_captured_iff (.ofModels models c) m name]
    push Not
    rfl

/-- A text in the path. -/
def segment (name : String) : Argument :=
  { name, carrier := .path, type := .primitive .text, required := true, description := none }

/-- A method that gets a text in the path. -/
def fetch (argument : String) : Method :=
  { name := "Fetch", verb := .get, path := "/\x7b" ++ argument ++ "\x7d", id := none, summary := none
    description := none, deprecated := false, arguments := [segment argument], returns := none }

def fetcher (name argument : String) : Client :=
  { name, baseEndpoint := "", methods := [fetch argument] }

/-- A model named as a type of the source, two that are named alike, and an argument named as a
variable. -/
theorem boxes_scoped :
    let models := ["Box", "box", "Pet"].map modelNamed
    let c := fetcher "kennel" "url"
    (models.map (·.name)).Nodup ∧ (typeNames models c).Nodup ∧
      (∀ s ∈ givenNames models c, s ∉ bareNames) ∧
      ∀ f ∈ methodFunctions (.ofModels models c) c, ∀ p ∈ f.parameters,
        p.name ∉ f.locals ∧ (p.name ∈ Support.functionNames → p.name ∉ f.callees) := by
  intro models c
  have hdistinct : (models.map (·.name)).Nodup := by decide
  obtain ⟨-, htypes, hbare, hlocals, hfunctions⟩ := clashes_iff (c := c) hdistinct
  have hclient : (TypeNames.ofModels models c).client = "Kennel" := by decide
  have hmodels : ∀ m ∈ models, modelIdentifier m.name ∉ preludeTraits := by decide
  have hcaptures : ∀ m ∈ c.methods, ¬ Captures m := by
    intro m hm
    rw [List.mem_singleton.1 hm]
    rintro ⟨-, a, ha, -⟩
    rw [(by decide : (fetch "url").arguments.find?
      (snakeIdentifier ·.name = "encode_path_segment") = none)] at ha
    cases ha
  rw [hclient, Support.typeNames_eq] at htypes
  rw [hclient] at hbare
  exact ⟨hdistinct, htypes.2 (by decide), hbare.2 ⟨by decide, hmodels⟩,
    fun f hf p hp => ⟨hlocals f hf p hp, hfunctions.2 hcaptures f hf p hp⟩⟩

/-- Nothing keeps the client from being named as a trait of the source, a model as one of the prelude,
or an argument as the function that encodes it. -/
theorem names_clash :
    let models := ["Into"].map modelNamed
    let c := fetcher "Transport" "encode_path_segment"
    (models.map (·.name)).Nodup ∧ ¬ (typeNames models c).Nodup ∧
      ¬ (∀ s ∈ givenNames models c, s ∉ bareNames) ∧
      ¬ ∀ f ∈ methodFunctions (.ofModels models c) c, ∀ p ∈ f.parameters,
        p.name ∈ Support.functionNames → p.name ∉ f.callees := by
  intro models c
  have hgiven : givenNames models c = ["Into", "Transport"] := by decide
  refine ⟨by decide, ?_, ?_, ?_⟩
  · rw [typeNames_eq, hgiven, Support.typeNames_eq]
    decide
  · rw [hgiven]
    decide
  · intro hfree
    have hcaptures : Captures (fetch "encode_path_segment") :=
      ⟨⟨_, List.mem_singleton_self _, rfl⟩, segment "encode_path_segment", by decide, by decide,
        by decide⟩
    have hfunction : methodFunction (.ofModels models c) (fetch "encode_path_segment") "fetch" ∈
        methodFunctions (.ofModels models c) c :=
      List.mem_map.2 ⟨(fetch "encode_path_segment", "fetch"), by decide, rfl⟩
    obtain ⟨p, hp, hname, hcalled⟩ := (exists_captured_iff _ _ _).2 hcaptures
    exact hfree _ hfunction p hp hname hcalled

end TypedClient.Source
