import TypedClient.Proofs.Resolution.Table

/-!
# Which documents are resolved

A document is resolved exactly when all its types settle, what definitions extend are definitions
and none extends itself, and the operations refer to nothing that is unknown. A reference that is
reported as unresolved is one that the document has and that leads nowhere.
-/

open Relation

namespace TypedClient

open Schema (TypeRef)

/-! ## The check of operations -/

namespace TypeTable

variable {t : TypeTable} {type : TypeRef} {name : String}

/-- A type has an unresolved reference where it ends in one. -/
theorem typeOf_eq_unresolved_iff : t.typeOf type = .error (.unresolved name) ↔
    type.innermost = .reference name ∧ name ∉ t.models.names ∧ name ∉ t.aliases.names := by
  induction type with
  | primitive kind format values =>
    simp only [typeOf, TypeRef.innermost]
    split <;> simp
  | array items ih => rw [typeOf, map_eq_error_iff, ih, TypeRef.innermost]
  | map values ih => rw [typeOf, map_eq_error_iff, ih, TypeRef.innermost]
  | any => simp [typeOf, TypeRef.innermost]
  | reference key =>
    simp only [typeOf, referenceType, TypeRef.innermost, TypeRef.reference.injEq,
      OrderedMap.contains_iff]
    split
    · rename_i hmodel
      exact iff_of_false (fun h => by cases h) fun h => h.2.1 (h.1 ▸ hmodel)
    · rename_i hmodel
      split
      · rename_i v halias
        exact iff_of_false (fun h => by cases h) fun h => h.2.2 (h.1 ▸ OrderedMap.mem_names_of_get? halias)
      · rename_i halias
        have halias := OrderedMap.get?_eq_none_iff.1 halias
        simp only [Except.error.injEq, TypeFault.unresolved.injEq]
        exact ⟨fun h => ⟨h, h ▸ hmodel, h ▸ halias⟩, fun h => h.1⟩

end TypeTable

namespace Resolution

variable {t : TypeTable} {o : Schema.Operation} {e : Failure}

theorem checkOperation_eq_ok_iff : checkOperation t o = .ok () ↔
    ∀ part type, (part, type) ∈ mentionedTypes o →
      ∀ name, t.typeOf type ≠ .error (.unresolved name) := by
  rw [checkOperation, forM_eq_ok_iff]
  constructor
  · intro h part type hmem name hname
    have hcheck := h _ hmem
    dsimp only at hcheck
    rw [hname] at hcheck
    cases hcheck
  · rintro h ⟨part, type⟩ hmem
    dsimp only
    split
    · rename_i name hname
      exact absurd hname (h part type hmem name)
    · rfl

theorem exists_of_checkOperation_eq_error (h : checkOperation t o = .error e) :
    ∃ part type name, (part, type) ∈ mentionedTypes o ∧
      t.typeOf type = .error (.unresolved name) ∧ e = .unresolved name (partPlace o part) := by
  obtain ⟨⟨part, type⟩, hmem, he⟩ := exists_of_forM_eq_error h
  dsimp only at he
  split at he
  · rename_i name hname
    cases he
    exact ⟨part, type, name, hmem, hname, rfl⟩
  · cases he

end Resolution

/-! ## Documents -/

section Resolve

variable {d : Schema.Document} {t : TypeTable} {e : Failure}

theorem Schema.Document.Tabulates.knows_iff (h : d.Tabulates t) {name : String} :
    d.knows name = true ↔ name ∈ t.models.names ∨ name ∈ t.aliases.names := by
  rw [Schema.Document.knows_iff, h.names, h.mem_aliases]

/-- No operation has a type that ends in an unknown reference. -/
def Schema.Document.OperationsKnown (d : Schema.Document) : Prop :=
  ∀ o ∈ d.operations, ∀ part type, (part, type) ∈ Resolution.mentionedTypes o →
    ∀ name, type.innermost = .reference name → d.knows name

theorem operationsKnown_iff (h : d.Tabulates t) :
    d.operations.forM (Resolution.checkOperation t) = .ok () ↔ d.OperationsKnown := by
  rw [forM_eq_ok_iff]
  refine forall₂_congr fun o _ => Resolution.checkOperation_eq_ok_iff.trans ?_
  refine forall₄_congr fun part type _ name => ?_
  rw [ne_eq, TypeTable.typeOf_eq_unresolved_iff, h.knows_iff, ← not_or, not_and, not_not]

theorem resolve_cases (d : Schema.Document) :
    (∃ e, resolve d = .error e ∧ d.Refuses e) ∨
    ∃ t, resolve d = .ok t ∧ d.Tabulates t ∧ d.OperationsKnown := by
  have hspec := Resolution.resolveAll_spec d
  rw [resolve, Resolution.outcome]
  rcases hrun : (Resolution.resolveAll d).run {} with ⟨_ | _, r⟩
  · exact .inl ⟨_, rfl, hspec.of_error hrun⟩
  · have ht : d.Tabulates r.table := Schema.Document.tabulates_table (hspec.of_ok hrun)
    -- operations are looked at only now, against the finished table
    cases hcheck : d.operations.forM (Resolution.checkOperation r.table) with
    | ok =>
      refine .inr ⟨r.table, ?_, ht, (operationsKnown_iff ht).1 hcheck⟩
      dsimp only
      rw [hcheck]
      rfl
    | error e =>
      refine .inl ⟨e, ?_, ?_⟩
      · dsimp only
        rw [hcheck]
        rfl
      · obtain ⟨o, ho, he⟩ := exists_of_forM_eq_error hcheck
        obtain ⟨part, type, name, hmem, hname, rfl⟩ :=
          Resolution.exists_of_checkOperation_eq_error he
        obtain ⟨hlast, hunknown⟩ := TypeTable.typeOf_eq_unresolved_iff.1 hname
        refine .operation ho hmem hlast ?_
        rw [ht.knows_iff]
        exact not_or.2 hunknown

theorem tabulates_of_resolve (h : resolve d = .ok t) : d.Tabulates t ∧ d.OperationsKnown := by
  rcases resolve_cases d with ⟨e, he, -⟩ | ⟨t', ht', htable⟩
  · cases h.symm.trans he
  · cases h.symm.trans ht'
    exact htable

theorem refuses_of_resolve (h : resolve d = .error e) : d.Refuses e := by
  rcases resolve_cases d with ⟨e', he', hrefuses⟩ | ⟨t, ht, -⟩
  · cases h.symm.trans he'
    exact hrefuses
  · cases h.symm.trans ht

end Resolve

/-! ## Well-formed documents -/

namespace Schema.Document

variable {d : Document} {t : TypeTable} {e : Failure} {name : String}

/-- A type that some parameter or the response of an operation has. -/
def OperationHas (o : Operation) (type : TypeRef) : Prop :=
  (∃ p ∈ o.parameters, p.type = type) ∨ ∃ r, o.response = some r ∧ r.type = type

structure WellFormed (d : Document) : Prop where
  aliases : ∀ name type, d.aliases.get? name = some type → d.Settles type
  properties : ∀ name definition, d.definitions.get? name = some definition →
    ∀ p ∈ definition.properties, d.Settles p.type
  bases : ∀ name base, d.Extends name base → base ∈ d.definitions.names
  acyclic : ∀ name, ¬ TransGen d.Extends name name
  operations : ∀ o ∈ d.operations, ∀ type, OperationHas o type →
    ∀ name, type.innermost = .reference name → d.knows name

/-- The document has a reference to `name`: something extends it, or one of its types leads to it,
through aliases or directly. -/
inductive Mentions (d : Document) (name : String) : Prop where
  | base {owner : String} (hbase : d.Extends owner name)
  | aliased {key : String} {type : TypeRef} (halias : d.aliases.get? key = some type)
      (hway : ReflTransGen d.Follows type (.reference name))
  | property {owner : String} {definition : Definition} {p : Property}
      (hget : d.definitions.get? owner = some definition) (hproperty : p ∈ definition.properties)
      (hway : ReflTransGen d.Follows p.type (.reference name))
  | operation {o : Operation} {type : TypeRef} (ho : o ∈ d.operations)
      (htype : OperationHas o type) (hway : ReflTransGen d.Follows type (.reference name))

theorem operationHas_iff {o : Operation} {type : TypeRef} :
    OperationHas o type ↔ ∃ part, (part, type) ∈ Resolution.mentionedTypes o := by
  simp only [OperationHas, Resolution.mentionedTypes, List.mem_append, List.mem_map,
    Option.mem_toList, Prod.mk.injEq]
  constructor
  · rintro (⟨p, hp, rfl⟩ | ⟨r, hr, rfl⟩)
    · exact ⟨_, .inl ⟨p, hp, rfl, rfl⟩⟩
    · exact ⟨_, .inr ⟨r, hr, rfl, rfl⟩⟩
  · rintro ⟨part, ⟨p, hp, -, rfl⟩ | ⟨r, hr, -, rfl⟩⟩
    · exact .inl ⟨p, hp, rfl⟩
    · exact .inr ⟨r, hr, rfl⟩

theorem operationsKnown_iff_has : d.OperationsKnown ↔ ∀ o ∈ d.operations, ∀ type,
    OperationHas o type → ∀ name, type.innermost = .reference name → d.knows name := by
  simp only [operationHas_iff, forall_exists_index]
  exact ⟨fun h o ho type part htype => h o ho part type htype,
    fun h o ho part type htype => h o ho type part htype⟩

theorem leads_innermost (type : TypeRef) : ReflTransGen d.Follows type type.innermost := by
  induction type with
  | array items ih => exact .head (.items items) ih
  | map values ih => exact .head (.values values) ih
  | _ => exact .refl

/-- Every failure contradicts well-formedness. -/
theorem WellFormed.not_refuses (h : d.WellFormed) : ¬ d.Refuses e := by
  have hsettles {type : TypeRef} {fault : TypeFault} (hs : d.Settles type) :
      ¬ d.Explains type fault := by
    intro hfault
    obtain ⟨v, hv⟩ := exists_denotes_iff.2 hs
    exact hfault.not_denotes hv
  intro he
  cases he with
  | aliased halias hfault => exact hsettles (h.aliases _ _ halias) hfault
  | property hps hp hfault =>
    -- the property may be inherited; the fault is one of the definition that declares it
    obtain ⟨owner, definition, hget, hproperty⟩ := hps.declared hp
    exact hsettles (h.properties _ _ hget _ hproperty) hfault
  | base hbase =>
    cases hbase with
    | base hextends hname => exact hname (h.bases _ _ hextends)
    | cycle hcycle => exact h.acyclic _ hcycle
  | operation ho htype hlast hname =>
    exact hname (h.operations _ ho _ (operationHas_iff.2 ⟨_, htype⟩) _ hlast)

/-- An unresolved reference is one of the document and leads nowhere. -/
theorem Refuses.mentions (h : d.Refuses e) {place : Location} (he : e = .unresolved name place) :
    ¬ d.knows name ∧ d.Mentions name := by
  have hunresolved {type : TypeRef} {fault : TypeFault} {at' : Location}
      (hfault : d.Explains type fault) (hplace : fault.failureAt at' = .unresolved name place) :
      ReflTransGen d.Follows type (.reference name) ∧ ¬ d.knows name := by
    cases fault with
    | unresolved key =>
      cases hplace
      exact hfault
    | unknownPrimitive key => cases hplace
    | aliasCycle key => cases hplace
  cases h with
  | aliased halias hfault =>
    obtain ⟨hway, hname⟩ := hunresolved hfault he
    exact ⟨hname, .aliased halias hway⟩
  | property hps hp hfault =>
    obtain ⟨hway, hname⟩ := hunresolved hfault he
    obtain ⟨owner, definition, hget, hproperty⟩ := hps.declared hp
    exact ⟨hname, .property hget hproperty hway⟩
  | base hbase =>
    cases hbase with
    | @base owner base hextends hname =>
      unfold Resolution.baseFailure at he
      split at he
      · cases he
      · rename_i halias
        cases he
        refine ⟨?_, .base hextends⟩
        rw [knows_iff]
        exact not_or.2 ⟨hname, by simpa using halias⟩
    | cycle => cases he
  | operation ho htype hlast hname =>
    cases he
    exact ⟨hname, .operation ho (operationHas_iff.2 ⟨_, htype⟩) (hlast ▸ leads_innermost _)⟩

/-- What is in a table has a type, so that a document with a table is well-formed. -/
theorem Tabulates.wellFormed (h : d.Tabulates t) (hops : d.OperationsKnown)
    (hdistinct : ∀ name definition, d.definitions.get? name = some definition →
      (definition.properties.map (·.name)).Nodup) : d.WellFormed := by
  have hmodel {name : String} {definition : Definition}
      (hget : d.definitions.get? name = some definition) :
      ∃ ps, d.Flattens name ps ∧ ∀ p ∈ ps, d.Settles p.type := by
    obtain ⟨m, -, ps, fields, hps, hfields, -⟩ := h.model_of_definition hget
    refine ⟨ps, hps, fun p hp => ?_⟩
    obtain ⟨f, -, v, hv, -⟩ := exists_of_mem_left hfields hp
    exact exists_denotes_iff.1 ⟨v, hv⟩
  refine ⟨fun name type halias => ?_, fun name definition hget p hp => ?_, fun name base hbase => ?_,
    fun name hcycle => ?_, operationsKnown_iff_has.1 hops⟩
  · obtain ⟨v, hv⟩ := OrderedMap.mem_names_iff.1 (h.known name (OrderedMap.mem_names_of_get? halias))
    obtain ⟨type', halias', hv⟩ := h.aliases name v hv
    cases halias.symm.trans halias'
    exact exists_denotes_iff.1 ⟨v, hv⟩
  -- an own property is among those of the model, since no other one has its name
  · obtain ⟨ps, hps, hsettles⟩ := hmodel hget
    exact hsettles p (hps.mem_own hget (hdistinct name definition hget) hp)
  · obtain ⟨definition, hget, hmem⟩ := hbase
    obtain ⟨ps, hps, -⟩ := hmodel hget
    obtain ⟨qs, hqs⟩ := hps.extends ⟨definition, hget, hmem⟩
    cases hqs with
    | definition _ hget' _ => exact OrderedMap.mem_names_of_get? hget'
  · obtain ⟨base, ⟨definition, hget, -⟩, -⟩ := TransGen.head'_iff.1 hcycle
    obtain ⟨ps, hps, -⟩ := hmodel hget
    exact hps.not_cycle hcycle

/-- Resolution accepts the well-formed documents; what it reports as unresolved is mentioned and
unknown. -/
theorem resolve_accepts (d : Document) (hdistinct : ∀ name definition,
    d.definitions.get? name = some definition → (definition.properties.map (·.name)).Nodup) :
    ((∃ t, resolve d = .ok t) ↔ d.WellFormed) ∧
    ∀ name place, resolve d = .error (.unresolved name place) →
      ¬ d.knows name ∧ d.Mentions name := by
  refine ⟨⟨?_, fun h => ?_⟩, fun name place he => (refuses_of_resolve he).mentions rfl⟩
  · rintro ⟨t, ht⟩
    obtain ⟨htable, hops⟩ := tabulates_of_resolve ht
    exact htable.wellFormed hops hdistinct
  · rcases resolve_cases d with ⟨e, -, he⟩ | ⟨t, ht, -⟩
    · exact absurd he h.not_refuses
    · exact ⟨t, ht⟩

/-- A node extends an item and holds links, which are nodes again; an operation returns links. -/
def linkedNodes : Document :=
  { definitions := .ofList [
      ("Item", { name := "Item", description := none, bases := [], properties := [] }),
      ("Node", { name := "Node", description := none, bases := ["Item"], properties := [
        { name := "next", type := .reference "Links", required := true, nullable := false,
          description := none }] })]
    aliases := .ofList [("Links", .array (.reference "Node"))]
    operations := [
      { verb := .get
        path := "/nodes"
        id := none
        summary := none
        description := none
        deprecated := false
        parameters := []
        requestMedia := []
        response := some { type := .reference "Links", optional := false }
        responseMedia := [] }]
    baseEndpoint := none
    title := none }

theorem linkedNodes_distinct (name : String) (definition : Definition)
    (hget : linkedNodes.definitions.get? name = some definition) :
    (definition.properties.map (·.name)).Nodup := by
  have hall : ∀ e ∈ linkedNodes.definitions.entries, (e.2.properties.map (·.name)).Nodup := by
    decide
  exact hall _ (OrderedMap.get?_eq_some_iff.1 hget)

theorem linkedNodes_wellFormed : linkedNodes.WellFormed := by
  have hlinks : linkedNodes.Settles (.reference "Links") :=
    exists_denotes_iff.1 ⟨_, .aliased (by decide) rfl (.array (.model (by decide)))⟩
  have hextends {name base : String} (h : linkedNodes.Extends name base) :
      name = "Node" ∧ base = "Item" := by
    obtain ⟨definition, hget, hbase⟩ := h
    have hall : ∀ e ∈ linkedNodes.definitions.entries, ∀ base ∈ e.2.bases,
        e.1 = "Node" ∧ base = "Item" := by decide
    exact hall _ (OrderedMap.get?_eq_some_iff.1 hget) base hbase
  refine ⟨fun name type halias => ?_, fun name definition hget p hp => ?_, fun name base hbase => ?_,
    fun name hcycle => ?_, fun o ho type htype name hlast => ?_⟩
  · have hall : ∀ e ∈ linkedNodes.aliases.entries, e.2 = .array (.reference "Node") := by decide
    have htype : type = .array (.reference "Node") :=
      hall _ (OrderedMap.get?_eq_some_iff.1 halias)
    rw [htype]
    exact exists_denotes_iff.1 ⟨_, .array (.model (by decide))⟩
  · have hall : ∀ e ∈ linkedNodes.definitions.entries, ∀ p ∈ e.2.properties,
        p.type = .reference "Links" := by decide
    rw [hall _ (OrderedMap.get?_eq_some_iff.1 hget) p hp]
    exact hlinks
  · rw [(hextends hbase).2]
    decide
  · obtain ⟨base, hhead, -⟩ := TransGen.head'_iff.1 hcycle
    obtain ⟨last, -, htail⟩ := TransGen.tail'_iff.1 hcycle
    exact absurd ((hextends hhead).1.symm.trans (hextends htail).2) (by decide)
  · have hall : ∀ o ∈ linkedNodes.operations, ∀ e ∈ Resolution.mentionedTypes o,
        e.2 = .reference "Links" := by decide
    obtain ⟨part, hmem⟩ := operationHas_iff.1 htype
    have htype : type = .reference "Links" := hall o ho _ hmem
    rw [htype] at hlast
    cases hlast
    decide

/-- The nodes have distinct property names and are well-formed, so that they are resolved. -/
theorem linkedNodes_resolved :
    (∀ name definition, linkedNodes.definitions.get? name = some definition →
      (definition.properties.map (·.name)).Nodup) ∧
    ∃ t, resolve linkedNodes = .ok t :=
  ⟨linkedNodes_distinct,
    (resolve_accepts linkedNodes linkedNodes_distinct).1.2 linkedNodes_wellFormed⟩

end Schema.Document

end TypedClient
