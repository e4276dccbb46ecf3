import TypedClient.Proofs.ClosedTypes

/-!
# Which operations have a method

An operation has a method when each of its parameters can be sent where the document puts it, and
when what is sent and returned as a whole is JSON. The method has an argument for each parameter,
which may be missing exactly when the document says so.
-/

namespace TypedClient

open Schema (Carrier Operation TypeRef isJsonMedia)

/-! ## Types that fit into a text -/

namespace ValueType

variable {t : ValueType}

/-- A primitive other than JSON, which may also be `null`. -/
inductive Scalar : ValueType → Prop where
  | primitive {kind : Primitive} (h : kind ≠ .json) : Scalar (.primitive kind)
  | nullable {kind : Primitive} (h : kind ≠ .json) : Scalar (.nullable (.primitive kind))

/-- A scalar, or an array of scalars which may also be `null`. -/
inductive ScalarLike : ValueType → Prop where
  | scalar {t : ValueType} (h : t.Scalar) : ScalarLike t
  | array {items : ValueType} (h : items.Scalar) : ScalarLike (.array items)
  | nullableArray {items : ValueType} (h : items.Scalar) : ScalarLike (.nullable (.array items))

theorem scalar_iff_nonNull : t.Scalar ↔ ∃ kind, kind ≠ .json ∧ t.nonNull = .primitive kind := by
  constructor
  · rintro (h | h) <;> exact ⟨_, h, rfl⟩
  · rintro ⟨kind, hkind, h⟩
    cases t with
    | primitive =>
      cases h
      exact .primitive hkind
    | nullable inner =>
      cases h
      exact .nullable hkind
    | array | map | model => cases h

theorem scalarLike_iff_nonNull :
    t.ScalarLike ↔ t.Scalar ∨ ∃ items, items.Scalar ∧ t.nonNull = .array items := by
  constructor
  · rintro (h | h | h)
    · exact .inl h
    · exact .inr ⟨_, h, rfl⟩
    · exact .inr ⟨_, h, rfl⟩
  · rintro (h | ⟨items, hitems, h⟩)
    · exact .scalar h
    · cases t with
      | array =>
        cases h
        exact .array hitems
      | nullable inner =>
        cases h
        exact .nullableArray hitems
      | primitive | map | model => cases h

theorem scalarLike_iff : t.ScalarLike ↔ t.isScalarLike = true := by
  rw [scalarLike_iff_nonNull]
  simp only [scalar_iff_nonNull]
  unfold isScalarLike
  cases t.nonNull with
  | primitive kind => simp
  | array items =>
    simp only [reduceCtorEq, and_false, exists_false, array.injEq, false_or, exists_eq_right']
    generalize items.nonNull = last
    cases last <;> simp
  | map | nullable | model => simp

end ValueType

/-! ## Supported operations -/

/-- JSON is among the media types, or none is declared. -/
def AllowsJson (media : List String) : Prop := media = [] ∨ ∃ m ∈ media, isJsonMedia m = true

theorem admitsJson_iff {media : List String} :
    Schema.admitsJson media = true ↔ AllowsJson media := by
  simp [Schema.admitsJson, AllowsJson, List.any_eq_true]

/-- The parameters that are sent as a body. -/
def bodies (ps : List Schema.Parameter) : List Schema.Parameter := ps.filter (·.carrier = .body)

/-- What an operation has to be like to have a method. -/
structure Supported (t : TypeTable) (o : Operation) : Prop where
  carriers : ∀ p ∈ o.parameters, p.carrier ≠ .formData ∧ p.carrier ≠ .cookie
  scalars : ∀ p ∈ o.parameters, p.carrier = .path ∨ p.carrier = .query ∨ p.carrier = .header →
    ∃ v, t.typeOf p.type = .ok v ∧ v.ScalarLike
  oneBody : (bodies o.parameters).length ≤ 1
  bodyTypes : ∀ p ∈ bodies o.parameters, ∃ v, t.typeOf p.type = .ok v
  requestMedia : bodies o.parameters ≠ [] → AllowsJson o.requestMedia
  response : ∀ r, o.response = some r → AllowsJson o.responseMedia ∧ ∃ v, t.typeOf r.type = .ok v

/-- All references of the operation lead to a model or an alias. -/
def TypeTable.Knows (t : TypeTable) (o : Operation) : Prop :=
  ∀ type, Schema.Document.OperationHas o type → ∀ name, type.innermost = .reference name →
    name ∈ t.models.names ∨ name ∈ t.aliases.names

/-- The type ends in a reference to a name that is neither a model nor an alias. -/
def TypeTable.Dangles (t : TypeTable) (type : TypeRef) (name : String) : Prop :=
  type.innermost = .reference name ∧ name ∉ t.models.names ∧ name ∉ t.aliases.names

theorem TypeTable.not_knows_iff {t : TypeTable} {o : Operation} : ¬ t.Knows o ↔
    ∃ type, Schema.Document.OperationHas o type ∧ ∃ name, t.Dangles type name := by
  simp only [Knows, Dangles, not_forall, not_or, exists_prop]

namespace Method

variable {t : TypeTable} {o : Operation} {p : Schema.Parameter} {ps : List Schema.Parameter}
  {hasBody : Bool} {part : String} {type : TypeRef} {v : ValueType} {m : Method}
  {arguments : List Argument} {failure : Failure}

/-! ## Types -/

theorem typeOf_eq_ok_iff : typeOf t o part type = .ok v ↔ t.typeOf type = .ok v := by
  unfold typeOf
  split <;> simp_all

theorem scalarTypeOf_eq_ok_iff :
    scalarTypeOf t o part type = .ok v ↔ t.typeOf type = .ok v ∧ v.ScalarLike := by
  rw [scalarTypeOf, bind_eq_ok_iff]
  simp only [typeOf_eq_ok_iff, ValueType.scalarLike_iff]
  constructor
  · rintro ⟨w, hw, h⟩
    split at h
    · rename_i hscalar
      cases h
      exact ⟨hw, hscalar⟩
    · cases h
  · rintro ⟨hv, hscalar⟩
    exact ⟨v, hv, if_pos hscalar⟩

/-- The parameter can be sent in its part of a request as a value of the type. Outside of a body that
is a short text. -/
@[mk_iff]
structure Sends (t : TypeTable) (p : Schema.Parameter) (v : ValueType) : Prop where
  carrier : p.carrier ≠ .formData ∧ p.carrier ≠ .cookie
  type : t.typeOf p.type = .ok v
  scalar : p.carrier ≠ .body → v.ScalarLike

/-- Whether the argument for a parameter has to be given. In a path it has, whatever is declared. -/
def mustBeGiven (p : Schema.Parameter) : Bool := p.required || p.carrier = .path

theorem argumentType_eq_ok_iff : argumentType t o hasBody p = .ok v ↔
    (p.carrier = .body → hasBody = false) ∧
      ∃ w, Sends t p w ∧ (if mustBeGiven p then w else w.orNull) = v := by
  cases hcarrier : p.carrier with
  | formData | cookie => simp [argumentType, sends_iff, hcarrier]
  | path => simp [argumentType, sends_iff, mustBeGiven, hcarrier, scalarTypeOf_eq_ok_iff]
  | query | header =>
    simp [argumentType, sends_iff, mustBeGiven, hcarrier, map_eq_ok_iff, scalarTypeOf_eq_ok_iff]
  | body =>
    cases hasBody <;>
      simp [argumentType, sends_iff, mustBeGiven, hcarrier, map_eq_ok_iff, typeOf_eq_ok_iff]

/-! ## Arguments -/

/-- The argument for a parameter. -/
structure IsFor (t : TypeTable) (p : Schema.Parameter) (a : Argument) : Prop where
  name : a.name = p.name
  carrier : a.carrier = p.carrier
  description : a.description = p.description
  required : a.required = mustBeGiven p
  type : ∃ v, Sends t p v ∧ a.type = if mustBeGiven p then v else v.orNull

theorem oneBody_cons_iff : (bodies (p :: ps)).length + hasBody.toNat ≤ 1 ↔
    (p.carrier = .body → hasBody = false) ∧
      (bodies ps).length + (hasBody || decide (p.carrier = .body)).toNat ≤ 1 := by
  by_cases hcarrier : p.carrier = .body
  · cases hasBody <;> simp [bodies, hcarrier]
  · simp [bodies, hcarrier]

/-- The arguments are those of the parameters, of which one at most is a body. -/
theorem argumentsFor_eq_ok_iff : argumentsFor t o hasBody ps = .ok arguments ↔
    List.Forall₂ (IsFor t) ps arguments ∧ (bodies ps).length + hasBody.toNat ≤ 1 := by
  induction ps generalizing hasBody arguments with
  | nil => cases hasBody <;> simp [argumentsFor, bodies, eq_comm]
  | cons p ps ih =>
    rw [oneBody_cons_iff, List.forall₂_cons_left_iff]
    constructor
    · intro h
      obtain ⟨v, hv, h⟩ := bind_eq_ok_iff.1 h
      obtain ⟨rest, hrest, h⟩ := bind_eq_ok_iff.1 h
      cases h
      obtain ⟨hbody, w, hw, rfl⟩ := argumentType_eq_ok_iff.1 hv
      obtain ⟨harguments, hbodies⟩ := ih.1 hrest
      exact ⟨⟨_, rest, ⟨rfl, rfl, rfl, rfl, w, hw, rfl⟩, harguments, rfl⟩, hbody, hbodies⟩
    · rintro ⟨⟨a, rest, ha, harguments, rfl⟩, hbody, hbodies⟩
      obtain ⟨w, hw, htype⟩ := ha.type
      have hv := (argumentType_eq_ok_iff (o := o)).2 ⟨hbody, w, hw, htype.symm⟩
      refine bind_eq_ok_iff.2 ⟨_, hv, bind_eq_ok_iff.2 ⟨rest, ih.2 ⟨harguments, hbodies⟩, ?_⟩⟩
      obtain ⟨hname, hcarrier, hdescription, hrequired, -⟩ := ha
      cases a
      simp_all [mustBeGiven]

theorem exists_forall₂_isFor_iff : (∃ arguments, List.Forall₂ (IsFor t) ps arguments) ↔
    ∀ p ∈ ps, ∃ v, Sends t p v := by
  constructor
  · rintro ⟨arguments, h⟩ p hp
    obtain ⟨a, -, ha⟩ := Schema.Document.exists_of_mem_left h hp
    obtain ⟨v, hv, -⟩ := ha.type
    exact ⟨v, hv⟩
  · intro h
    induction ps with
    | nil => exact ⟨[], .nil⟩
    | cons p ps ih =>
      obtain ⟨⟨v, hv⟩, hps⟩ := List.forall_mem_cons.1 h
      obtain ⟨arguments, harguments⟩ := ih hps
      let a : Argument := {
        name := p.name
        carrier := p.carrier
        type := if mustBeGiven p then v else v.orNull
        required := mustBeGiven p
        description := p.description }
      exact ⟨a :: arguments, .cons ⟨rfl, rfl, rfl, rfl, v, hv, rfl⟩ harguments⟩

theorem any_body_iff (h : List.Forall₂ (IsFor t) ps arguments) :
    arguments.any (·.carrier = .body) = true ↔ bodies ps ≠ [] := by
  induction h with
  | nil => simp [bodies]
  | @cons p a ps arguments ha _ ih =>
    rw [List.any_cons, ha.carrier, Bool.or_eq_true, ih]
    by_cases hcarrier : p.carrier = .body <;> simp [bodies, hcarrier]

/-! ## Methods -/

/-- What a method returns for the response that is declared. -/
inductive Returns (t : TypeTable) (o : Operation) : Option ValueType → Prop where
  | nothing (hresponse : o.response = none) : Returns t o none
  | value {r : Schema.Response} {v : ValueType} (hresponse : o.response = some r)
      (hmedia : AllowsJson o.responseMedia) (hv : t.typeOf r.type = .ok v) :
      Returns t o (some (if r.optional then v.orNull else v))

theorem returnsFor_eq_ok_iff {returns : Option ValueType} :
    returnsFor t o = .ok returns ↔ Returns t o returns := by
  unfold returnsFor
  split
  · rename_i hresponse
    constructor
    · intro h
      cases h
      exact .nothing hresponse
    · rintro (_ | ⟨hresponse', -, -⟩)
      · rfl
      · cases hresponse.symm.trans hresponse'
  · rename_i r hresponse
    split
    · rename_i hmedia
      refine iff_of_false (by simp) ?_
      rintro (hnone | ⟨-, hjson, -⟩)
      · cases hresponse.symm.trans hnone
      · rw [admitsJson_iff.2 hjson] at hmedia
        cases hmedia
    · rename_i hmedia
      have hjson : AllowsJson o.responseMedia := admitsJson_iff.1 (by simpa using hmedia)
      simp only [bind_eq_ok_iff, typeOf_eq_ok_iff, Except.ok.injEq]
      constructor
      · rintro ⟨v, hv, rfl⟩
        exact .value hresponse hjson hv
      · rintro (hnone | ⟨hresponse', -, hv⟩)
        · cases hresponse.symm.trans hnone
        · cases hresponse.symm.trans hresponse'
          exact ⟨_, hv, rfl⟩

theorem exists_returns_iff : (∃ returns, Returns t o returns) ↔
    ∀ r, o.response = some r → AllowsJson o.responseMedia ∧ ∃ v, t.typeOf r.type = .ok v := by
  constructor
  · rintro ⟨_, h⟩ r hr
    cases h with
    | nothing hnone => cases hr.symm.trans hnone
    | value hresponse hmedia hv =>
      cases hr.symm.trans hresponse
      exact ⟨hmedia, _, hv⟩
  · intro h
    cases hresponse : o.response with
    | none => exact ⟨none, .nothing hresponse⟩
    | some r =>
      obtain ⟨hmedia, v, hv⟩ := h r hresponse
      exact ⟨_, .value hresponse hmedia hv⟩

/-- What the method of an operation takes and returns. -/
structure Expresses (t : TypeTable) (o : Operation) (m : Method) : Prop where
  arguments : List.Forall₂ (IsFor t) o.parameters m.arguments
  oneBody : (bodies o.parameters).length ≤ 1
  requestMedia : bodies o.parameters ≠ [] → AllowsJson o.requestMedia
  returns : Returns t o m.returns

/-- The method of the operation with the given arguments and result. -/
def named (o : Operation) (arguments : List Argument) (returns : Option ValueType) : Method :=
  { name := o.methodName
    verb := o.verb
    path := o.path
    id := o.id
    summary := o.summary
    description := o.description
    deprecated := o.deprecated
    arguments, returns }

/-- JSON is asked for where something is sent. -/
theorem request_refused_iff (h : List.Forall₂ (IsFor t) o.parameters arguments) :
    (arguments.any (·.carrier = .body) && !Schema.admitsJson o.requestMedia) = true ↔
      ¬ (bodies o.parameters ≠ [] → AllowsJson o.requestMedia) := by
  rw [Bool.and_eq_true, any_body_iff h, ← admitsJson_iff]
  simp

theorem ofOperation_eq_ok_iff : ofOperation t o = .ok m ↔
    Expresses t o m ∧ m = named o m.arguments m.returns := by
  constructor
  · intro h
    obtain ⟨arguments, harguments, h⟩ := bind_eq_ok_iff.1 h
    obtain ⟨harguments, hbodies⟩ := argumentsFor_eq_ok_iff.1 harguments
    dsimp only at h
    split at h
    · cases h
    · rename_i hjson
      rw [request_refused_iff harguments, not_not] at hjson
      obtain ⟨returns, hreturns, h⟩ := bind_eq_ok_iff.1 h
      cases h
      exact ⟨⟨harguments, hbodies, hjson, returnsFor_eq_ok_iff.1 hreturns⟩, rfl⟩
  · rintro ⟨⟨harguments, hbodies, hjson, hreturns⟩, hm⟩
    refine bind_eq_ok_iff.2 ⟨m.arguments, argumentsFor_eq_ok_iff.2 ⟨harguments, hbodies⟩, ?_⟩
    dsimp only
    rw [if_neg (mt (request_refused_iff harguments).1 (not_not.2 hjson))]
    refine bind_eq_ok_iff.2 ⟨m.returns, returnsFor_eq_ok_iff.2 hreturns, ?_⟩
    exact congrArg Except.ok hm.symm

theorem exists_ofOperation_iff : (∃ m, ofOperation t o = .ok m) ↔ Supported t o := by
  have hsends (p : Schema.Parameter) : (∃ v, Sends t p v) ↔
      (p.carrier ≠ .formData ∧ p.carrier ≠ .cookie) ∧
      (p.carrier = .path ∨ p.carrier = .query ∨ p.carrier = .header →
        ∃ v, t.typeOf p.type = .ok v ∧ v.ScalarLike) ∧
      (p.carrier = .body → ∃ v, t.typeOf p.type = .ok v) := by
    cases hcarrier : p.carrier <;> simp [sends_iff, hcarrier]
  simp only [ofOperation_eq_ok_iff]
  constructor
  · rintro ⟨m, ⟨harguments, hbodies, hjson, hreturns⟩, -⟩
    have hparameters := exists_forall₂_isFor_iff.1 ⟨_, harguments⟩
    simp only [hsends] at hparameters
    refine ⟨fun p hp => (hparameters p hp).1, fun p hp => (hparameters p hp).2.1, hbodies, ?_, hjson,
      exists_returns_iff.1 ⟨_, hreturns⟩⟩
    intro p hp
    obtain ⟨hp, hbody⟩ := List.mem_filter.1 hp
    exact (hparameters p hp).2.2 (by simpa using hbody)
  · rintro ⟨hcarriers, hscalars, hbodies, htypes, hjson, hresponse⟩
    have hparameters : ∀ p ∈ o.parameters, ∃ v, Sends t p v := by
      intro p hp
      refine (hsends p).2 ⟨hcarriers p hp, hscalars p hp, fun hbody => htypes p ?_⟩
      exact List.mem_filter.2 ⟨hp, by simpa using hbody⟩
    obtain ⟨arguments, harguments⟩ := exists_forall₂_isFor_iff.2 hparameters
    obtain ⟨returns, hreturns⟩ := exists_returns_iff.2 hresponse
    exact ⟨named o arguments returns, ⟨harguments, hbodies, hjson, hreturns⟩, rfl⟩

/-! ## Operations without a method -/

/-- Only a reference that leads nowhere is fatal. -/
theorem typeOf_eq_fatal_iff : typeOf t o part type = .error (.fatal failure) ↔
    ∃ name, t.Dangles type name ∧ failure = .unresolved name (Resolution.partPlace o part) := by
  simp only [TypeTable.Dangles, ← TypeTable.typeOf_eq_unresolved_iff]
  unfold typeOf
  cases t.typeOf type with
  | ok => simp
  | error fault => cases fault <;> simp [eq_comm]

theorem scalarTypeOf_eq_fatal_iff : scalarTypeOf t o part type = .error (.fatal failure) ↔
    typeOf t o part type = .error (.fatal failure) := by
  rw [scalarTypeOf, bind_eq_error_iff]
  refine or_iff_left ?_
  rintro ⟨v, -, h⟩
  split at h <;> cases h

/-- The type of a parameter is looked at unless the parameter cannot be sent at all. -/
theorem argumentType_eq_fatal_iff : argumentType t o hasBody p = .error (.fatal failure) ↔
    (p.carrier ≠ .formData ∧ p.carrier ≠ .cookie) ∧ (p.carrier = .body → hasBody = false) ∧
      typeOf t o (Resolution.parameterName p) p.type = .error (.fatal failure) := by
  cases hcarrier : p.carrier with
  | formData | cookie => simp [argumentType, hcarrier]
  | path => simp [argumentType, hcarrier, scalarTypeOf_eq_fatal_iff]
  | query | header => simp [argumentType, hcarrier, map_eq_error_iff, scalarTypeOf_eq_fatal_iff]
  | body => cases hasBody <;> simp [argumentType, hcarrier, map_eq_error_iff]

/-- Parameters are gone through in order, and nothing may be wrong with those before. -/
theorem argumentsFor_eq_fatal_iff : argumentsFor t o hasBody ps = .error (.fatal failure) ↔
    ∃ before p after, ps = before ++ p :: after ∧ (∀ q ∈ before, ∃ v, Sends t q v) ∧
      (bodies (before ++ [p])).length + hasBody.toNat ≤ 1 ∧
      (p.carrier ≠ .formData ∧ p.carrier ≠ .cookie) ∧
      typeOf t o (Resolution.parameterName p) p.type = .error (.fatal failure) := by
  -- a parameter that is no obstacle joins those before the reference, and may be their body
  induction ps generalizing hasBody with
  | nil => simp [argumentsFor]
  | cons p ps ih =>
    have hone : (bodies [p]).length + hasBody.toNat ≤ 1 ↔ (p.carrier = .body → hasBody = false) := by
      rw [oneBody_cons_iff, and_iff_left]
      exact (Nat.zero_add _).trans_le (Bool.toNat_le _)
    have hcons : argumentsFor t o hasBody (p :: ps) = .error (.fatal failure) ↔
        argumentType t o hasBody p = .error (.fatal failure) ∨
          (∃ v, argumentType t o hasBody p = .ok v) ∧
            argumentsFor t o (hasBody || decide (p.carrier = .body)) ps = .error (.fatal failure) := by
      rw [argumentsFor, bind_eq_error_iff]
      simp [bind_eq_error_iff]
    rw [hcons, ih, argumentType_eq_fatal_iff]
    constructor
    · rintro (⟨hcarrier, hbody, h⟩ | ⟨⟨v, hv⟩, before, q, after, rfl, hbefore, hbodies, hcarrier, h⟩)
      · exact ⟨[], p, ps, rfl, List.forall_mem_nil _, hone.2 hbody, hcarrier, h⟩
      · obtain ⟨hbody, w, hw, -⟩ := argumentType_eq_ok_iff.1 hv
        exact ⟨p :: before, q, after, rfl, List.forall_mem_cons.2 ⟨⟨w, hw⟩, hbefore⟩,
          oneBody_cons_iff.2 ⟨hbody, hbodies⟩, hcarrier, h⟩
    · rintro ⟨before, q, after, heq, hbefore, hbodies, hcarrier, h⟩
      cases before with
      | nil =>
        obtain ⟨rfl, -⟩ := List.cons.inj heq
        exact .inl ⟨hcarrier, hone.1 hbodies, h⟩
      | cons p' before =>
        obtain ⟨rfl, rfl⟩ := List.cons.inj heq
        obtain ⟨⟨w, hw⟩, hbefore⟩ := List.forall_mem_cons.1 hbefore
        obtain ⟨hbody, hbodies⟩ := oneBody_cons_iff.1 hbodies
        exact .inr ⟨⟨_, argumentType_eq_ok_iff.2 ⟨hbody, w, hw, rfl⟩⟩, before, q, after, rfl, hbefore,
          hbodies, hcarrier, h⟩

theorem returnsFor_eq_fatal_iff : returnsFor t o = .error (.fatal failure) ↔
    ∃ r, o.response = some r ∧ AllowsJson o.responseMedia ∧
      typeOf t o "response" r.type = .error (.fatal failure) := by
  unfold returnsFor
  split
  · simp_all
  · rename_i r hresponse
    rw [← admitsJson_iff]
    cases Schema.admitsJson o.responseMedia <;> simp [hresponse, bind_eq_error_iff]

/-- Going through the operation ends at a reference in the part, which leads nowhere. Nothing before
it is an obstacle to a method. -/
inductive Stumbles (t : TypeTable) (o : Operation) (name : String) : String → Prop where
  | parameter {before after : List Schema.Parameter} {p : Schema.Parameter}
      (hparameters : o.parameters = before ++ p :: after)
      (hbefore : ∀ q ∈ before, ∃ v, Sends t q v)
      (hbodies : (bodies (before ++ [p])).length ≤ 1)
      (hcarrier : p.carrier ≠ .formData ∧ p.carrier ≠ .cookie)
      (hname : t.Dangles p.type name) :
      Stumbles t o name (Resolution.parameterName p)
  | response {r : Schema.Response} (hresponse : o.response = some r)
      (hparameters : ∀ q ∈ o.parameters, ∃ v, Sends t q v)
      (hbodies : (bodies o.parameters).length ≤ 1)
      (hrequest : bodies o.parameters ≠ [] → AllowsJson o.requestMedia)
      (hmedia : AllowsJson o.responseMedia)
      (hname : t.Dangles r.type name) :
      Stumbles t o name "response"

theorem ofOperation_eq_fatal_iff : ofOperation t o = .error (.fatal failure) ↔
    ∃ name part, Stumbles t o name part ∧
      failure = .unresolved name (Resolution.partPlace o part) := by
  constructor
  · intro h
    rcases bind_eq_error_iff.1 h with h | ⟨arguments, harguments, h⟩
    · obtain ⟨before, p, after, hparameters, hbefore, hbodies, hcarrier, h⟩ :=
        argumentsFor_eq_fatal_iff.1 h
      obtain ⟨name, hname, rfl⟩ := typeOf_eq_fatal_iff.1 h
      exact ⟨name, _, .parameter hparameters hbefore hbodies hcarrier hname, rfl⟩
    · obtain ⟨harguments, hbodies⟩ := argumentsFor_eq_ok_iff.1 harguments
      dsimp only at h
      split at h
      · cases h
      · rename_i hrequest
        rw [request_refused_iff harguments, not_not] at hrequest
        rcases bind_eq_error_iff.1 h with h | ⟨returns, -, h⟩
        · obtain ⟨r, hresponse, hmedia, h⟩ := returnsFor_eq_fatal_iff.1 h
          obtain ⟨name, hname, rfl⟩ := typeOf_eq_fatal_iff.1 h
          exact ⟨name, _, .response hresponse (exists_forall₂_isFor_iff.1 ⟨_, harguments⟩) hbodies
            hrequest hmedia hname, rfl⟩
        · cases h
  · rintro ⟨name, part, hstumbles, hfailure⟩
    cases hstumbles with
    | parameter hparameters hbefore hbodies hcarrier hname =>
      refine bind_eq_error_iff.2 (.inl (argumentsFor_eq_fatal_iff.2 ?_))
      exact ⟨_, _, _, hparameters, hbefore, hbodies, hcarrier,
        typeOf_eq_fatal_iff.2 ⟨name, hname, hfailure⟩⟩
    | response hresponse hparameters hbodies hrequest hmedia hname =>
      obtain ⟨arguments, harguments⟩ := exists_forall₂_isFor_iff.2 hparameters
      refine bind_eq_error_iff.2 (.inr ⟨arguments, argumentsFor_eq_ok_iff.2 ⟨harguments, hbodies⟩, ?_⟩)
      dsimp only
      rw [if_neg (mt (request_refused_iff harguments).1 (not_not.2 hrequest))]
      exact bind_eq_error_iff.2 (.inl (returnsFor_eq_fatal_iff.2
        ⟨_, hresponse, hmedia, typeOf_eq_fatal_iff.2 ⟨name, hname, hfailure⟩⟩))

theorem Stumbles.not_knows {name : String} (h : Stumbles t o name part) : ¬ t.Knows o := by
  rw [TypeTable.not_knows_iff]
  cases h with
  | @parameter before after p hparameters _ _ _ hname =>
    exact ⟨p.type, .inl ⟨p, by simp [hparameters], rfl⟩, name, hname⟩
  | @response r hresponse _ _ _ _ hname => exact ⟨r.type, .inr ⟨r, hresponse, rfl⟩, name, hname⟩

/-- What is left out for an operation whose references are known is this operation alone. -/
theorem ofOperation_ne_fatal (hknown : t.Knows o) : ofOperation t o ≠ .error (.fatal failure) := by
  intro h
  obtain ⟨name, part, hstumbles, -⟩ := ofOperation_eq_fatal_iff.1 h
  exact hstumbles.not_knows hknown

/-- An operation whose references are known is skipped if it has no method. -/
theorem exists_skip (hknown : t.Knows o) (h : ¬ ∃ m, ofOperation t o = .ok m) :
    ∃ obstacle, ofOperation t o = .error (.skip obstacle) := by
  cases hresult : ofOperation t o with
  | ok m => exact absurd ⟨m, hresult⟩ h
  | error e =>
    cases e with
    | skip obstacle => exact ⟨obstacle, rfl⟩
    | fatal failure => exact absurd hresult (ofOperation_ne_fatal hknown)

/-! ## Missing values -/

/-- The method takes and returns what the operation declares. What may be missing is nullable, and
nothing else is. -/
structure Mirrors (o : Operation) (m : Method) : Prop where
  arguments : List.Forall₂ (fun p a => a.name = p.name ∧ a.carrier = p.carrier ∧
    a.description = p.description) o.parameters m.arguments
  path : List.Forall₂ (fun p a => p.carrier = .path →
    a.type.isNullable = false ∧ a.required = true) o.parameters m.arguments
  other : List.Forall₂ (fun p a => p.carrier ≠ .path → a.required = p.required ∧
    (a.type.isNullable = true ↔ p.required = false)) o.parameters m.arguments
  returns : m.returns.isSome = o.response.isSome
  missing : ∀ r v, o.response = some r → m.returns = some v →
    (v.isNullable = true ↔ r.optional = true)

end Method

theorem ValueType.NullFree.isNullable_eq_false {v : ValueType} (h : v.NullFree) :
    v.isNullable = false := by
  cases h <;> rfl

@[simp] theorem ValueType.isNullable_orNull (v : ValueType) : v.orNull.isNullable = true := by
  cases v <;> rfl

namespace Method

variable {t : TypeTable} {o : Operation} {m : Method}

/-- A table has no nullable types of its own. -/
theorem Expresses.mirrors (h : Expresses t o m)
    (ht : ∀ type v, t.typeOf type = .ok v → v.isNullable = false) : Mirrors o m := by
  obtain ⟨harguments, -, -, hreturns⟩ := h
  have hnullable {p : Schema.Parameter} {a : Argument} (ha : IsFor t p a) :
      a.type.isNullable = !mustBeGiven p := by
    obtain ⟨v, hv, htype⟩ := ha.type
    rw [htype]
    cases mustBeGiven p
    · simp
    · simpa using ht _ v hv.type
  refine ⟨?_, ?_, ?_, ?_, ?_⟩
  · exact harguments.imp fun p a ha => ⟨ha.name, ha.carrier, ha.description⟩
  · refine harguments.imp fun p a ha hpath => ?_
    simp [hnullable ha, ha.required, mustBeGiven, hpath]
  · refine harguments.imp fun p a ha hpath => ?_
    simp [hnullable ha, ha.required, mustBeGiven, hpath]
  · generalize m.returns = returned at hreturns
    cases hreturns with
    | nothing hnone =>
      rw [hnone]
      rfl
    | value hresponse =>
      rw [hresponse]
      rfl
  · intro r v hr hv
    rw [hv] at hreturns
    generalize hsome : some v = returned at hreturns
    cases hreturns with
    | nothing => cases hsome
    | @value r' w hresponse _ hw =>
      cases hsome
      cases hr.symm.trans hresponse
      have := ht _ w hw
      cases r.optional <;> simp_all

/-- An operation whose references are known has a method exactly when it is supported, and is skipped
otherwise. With the table of a document the method mirrors the operation. -/
theorem ofOperation_accepts (hknown : t.Knows o) :
    ((∃ m, ofOperation t o = .ok m) ↔ Supported t o) ∧
    (¬ Supported t o → ∃ obstacle, ofOperation t o = .error (.skip obstacle)) ∧
    ∀ d m, resolve d = .ok t → ofOperation t o = .ok m → Mirrors o m := by
  refine ⟨exists_ofOperation_iff, fun h => exists_skip hknown (mt exists_ofOperation_iff.1 h), ?_⟩
  intro d m ht hm
  obtain ⟨htable, -⟩ := tabulates_of_resolve ht
  apply (ofOperation_eq_ok_iff.1 hm).1.mirrors
  exact fun type v hv => (htable.denotes_of_typeOf hv).nullFree.isNullable_eq_false

end Method

namespace Schema

/-- Pets, and lists of their numbers. -/
def kennel : Document :=
  { definitions := .ofList [
      ("Pet", { name := "Pet", description := none, bases := [], properties := [] })]
    aliases := .ofList [("Numbers", .array (.primitive "integer" none []))]
    operations := []
    baseEndpoint := none
    title := none }

/-- Gives a pet new relatives, if it still has that many. -/
def adopt : Operation :=
  { verb := .put
    path := "/pets/\x7bid\x7d"
    id := some "adopt"
    summary := none
    description := none
    deprecated := false
    parameters := [
      { name := "id", carrier := .path, type := .primitive "integer" none [], required := false,
        description := none },
      { name := "relatives", carrier := .query, type := .reference "Numbers", required := false,
        description := some "Numbers of pets" },
      { name := "body", carrier := .body, type := .reference "Pet", required := true,
        description := none }]
    requestMedia := ["application/xml", "application/json"]
    response := some { type := .array (.reference "Pet"), optional := true }
    responseMedia := [] }

end Schema

open Schema (kennel adopt)

theorem exists_kennelTable : ∃ t, resolve kennel = .ok t ∧ t.Knows adopt ∧
    ∃ m, Method.ofOperation t adopt = .ok m := by
  have hrun : (resolve kennel).map (fun t => (t.models.names, t.aliases.names,
      (Method.ofOperation t adopt).isOk)) = .ok (["Pet"], ["Numbers"], true) := by
    decide +kernel
  obtain ⟨t, ht, hrun⟩ := map_eq_ok_iff.1 hrun
  simp only [Prod.mk.injEq] at hrun
  obtain ⟨hmodels, haliases, hmethod⟩ := hrun
  refine ⟨t, ht, fun type htype name hname => ?_, ?_⟩
  · have hall : ∀ e ∈ Resolution.mentionedTypes adopt, e.2.innermost = .primitive "integer" none [] ∨
        e.2.innermost = .reference "Numbers" ∨ e.2.innermost = .reference "Pet" := by
      decide
    obtain ⟨part, hpart⟩ := Schema.Document.operationHas_iff.1 htype
    rw [hmodels, haliases]
    rcases hall _ hpart with hlast | hlast | hlast <;> simp_all
  · cases hm : Method.ofOperation t adopt with
    | ok m => exact ⟨m, rfl⟩
    | error e =>
      rw [hm] at hmethod
      cases hmethod

/-- Adopting is supported. The pet must be given and the relatives need not, nor is it certain that
something comes back. -/
theorem adopt_mirrored : ∃ t m, resolve kennel = .ok t ∧ t.Knows adopt ∧ Supported t adopt ∧
    Method.ofOperation t adopt = .ok m ∧ Method.Mirrors adopt m := by
  obtain ⟨t, ht, hknown, m, hm⟩ := exists_kennelTable
  obtain ⟨haccepts, -, hmirrors⟩ := Method.ofOperation_accepts hknown
  exact ⟨t, m, ht, hknown, haccepts.1 ⟨m, hm⟩, hm, hmirrors kennel m ht hm⟩

end TypedClient
