import Mathlib
import TypedClient.Proofs.Run
import TypedClient.Proofs.Source.WireNames

/-!
# When emission fails

The code of a model is added item by item to what its identifier stands for so far, and a second
record for one identifier is refused. Identifiers are the same only where names are, and all names
that are put into code are valid. So a name that two models have is the only thing that keeps a source
from being made, also where a parser has to take the code first.
-/

namespace TypedClient.Source

/-! ## Repetitions -/

section Repetitions

variable {s : String} {ss seen : List String}

/-- What is found stands among what is seen or before it, and nothing stands so in an earlier place. -/
theorem firstRepeated?_eq_some_iff : firstRepeated? seen ss = some s ↔
    ∃ before after, ss = before ++ s :: after ∧ before.Nodup ∧ before.Disjoint seen ∧
      s ∈ before ++ seen := by
  induction ss generalizing seen with
  | nil => simp [firstRepeated?]
  | cons first ss ih =>
    rw [firstRepeated?]
    split
    · rename_i hseen
      constructor
      · rintro ⟨rfl⟩
        exact ⟨[], ss, rfl, List.nodup_nil, List.disjoint_nil_left _, hseen⟩
      · rintro ⟨before, after, heq, -, hdisjoint, -⟩
        cases before with
        | nil => exact congrArg some (List.cons.inj heq).1
        | cons b before =>
          obtain ⟨rfl, -⟩ := List.cons.inj heq
          exact absurd hseen (hdisjoint List.mem_cons_self)
    · -- the first text is one of those seen by the rest, and so not among the ones before
      rename_i hseen
      rw [ih]
      constructor
      · rintro ⟨before, after, rfl, hnodup, hdisjoint, hs⟩
        rw [List.disjoint_cons_right] at hdisjoint
        exact ⟨first :: before, after, rfl, List.nodup_cons.2 ⟨hdisjoint.1, hnodup⟩,
          List.disjoint_cons_left.2 ⟨hseen, hdisjoint.2⟩, by simpa [or_left_comm] using hs⟩
      · rintro ⟨before, after, heq, hnodup, hdisjoint, hs⟩
        cases before with
        | nil =>
          obtain ⟨rfl, -⟩ := List.cons.inj heq
          exact absurd hs hseen
        | cons b before =>
          obtain ⟨rfl, rfl⟩ := List.cons.inj heq
          rw [List.nodup_cons] at hnodup
          rw [List.disjoint_cons_left] at hdisjoint
          exact ⟨before, after, rfl, hnodup.2, List.disjoint_cons_right.2 ⟨hnodup.1, hdisjoint.2⟩,
            by simpa [or_left_comm] using hs⟩

/-- What makes texts no more alike than they are makes the same text the first to be repeated. -/
theorem firstRepeated?_map {f : String → String} (hf : Set.InjOn f {s | s ∈ ss ∨ s ∈ seen}) :
    firstRepeated? (seen.map f) (ss.map f) = (firstRepeated? seen ss).map f := by
  induction ss generalizing seen with
  | nil => rfl
  | cons first ss ih =>
    have hmem : f first ∈ seen.map f ↔ first ∈ seen := by
      constructor
      · intro h
        obtain ⟨s, hs, heq⟩ := List.mem_map.1 h
        rwa [← hf (.inr hs) (.inl List.mem_cons_self) heq]
      · exact List.mem_map_of_mem
    have hrest : firstRepeated? ((first :: seen).map f) (ss.map f) =
        (firstRepeated? (first :: seen) ss).map f :=
      ih (hf.mono fun s hs => by simpa [or_left_comm, or_assoc] using hs)
    rw [List.map_cons] at hrest
    rw [List.map_cons, firstRepeated?, firstRepeated?, hrest]
    simp only [hmem]
    split <;> rfl

end Repetitions

/-! ## Emission by items -/

def Item.isRecord : Item → Bool
  | .record _         => true
  | .constant ..      => false
  | .implementation _ => false

/-- Adds an item to those that an identifier stands for, among which there is one record only. -/
def declare (identifier : String) (declared : OrderedMap (List Item)) (item : Item) :
    Except Failure (OrderedMap (List Item)) :=
  let items := (declared.get? identifier).getD []
  if item.isRecord && items.any Item.isRecord then .error (.repeatedType identifier)
  else .ok (declared.insert identifier (items ++ [item]))

variable (parse : List Item → Except Failure (List Item))

/-- Adds the items of a model, as they come from a parser. -/
def declareModel (ns : TypeNames) (declared : OrderedMap (List Item)) (m : Model) :
    Except Failure (OrderedMap (List Item)) := do
  (← parse (modelItems ns m)).foldlM (declare (ns.model m.name)) declared

/-- The source for models and a client, the code of which goes through a parser. -/
def emitParsed (models : List Model) (c : Client) (header : Option String) :
    Except Failure String := do
  let ns := TypeNames.ofModels models c
  let declared ← models.foldlM (declareModel parse ns) ∅
  let client ← parse (clientItems ns c)
  return (header.map headerComment).getD "" ++ Support.text
    ++ printItems (declared.values.flatten ++ client)

section Declared

variable {parse} {ns : TypeNames} {m : Model} {models : List Model} {c : Client}
  {declared : OrderedMap (List Item)} {identifier : String} {items started : List Item}

/-- Items that are no records are added to what is there. -/
theorem foldlM_declare (h : ∀ item ∈ items, item.isRecord = false) :
    items.foldlM (declare identifier) (declared.insert identifier started) =
      .ok (declared.insert identifier (started ++ items)) := by
  induction items generalizing started with
  | nil => simp [pure, Except.pure]
  | cons item items ih =>
    obtain ⟨hitem, hitems⟩ := List.forall_mem_cons.1 h
    have hdeclare : declare identifier (declared.insert identifier started) item =
        .ok (declared.insert identifier (started ++ [item])) := by
      simp [declare, hitem, OrderedMap.get?_insert, OrderedMap.insert_insert]
    rw [List.foldlM_cons, hdeclare]
    exact (ih hitems).trans (by rw [List.append_assoc, List.singleton_append])

/-- Every identifier stands for a record, and maybe for other items. -/
def HasRecords (declared : OrderedMap (List Item)) : Prop :=
  ∀ identifier items, declared.get? identifier = some items → items.any Item.isRecord = true

theorem HasRecords.insert (h : HasRecords declared) (hitems : items.any Item.isRecord = true) :
    HasRecords (declared.insert identifier items) := by
  intro key items' hkey
  rw [OrderedMap.get?_insert] at hkey
  split at hkey
  · cases hkey
    exact hitems
  · exact h key items' hkey

/-- The items of a model are added where its identifier is new. -/
theorem declareModel_eq (hparse : parse (modelItems ns m) = .ok (modelItems ns m))
    (h : HasRecords declared) : declareModel parse ns declared m =
      if ns.model m.name ∈ declared.names then .error (.repeatedType (ns.model m.name))
      else .ok (declared.insert (ns.model m.name) (modelItems ns m)) := by
  have hitems : declareModel parse ns declared m =
      (modelItems ns m).foldlM (declare (ns.model m.name)) declared := by
    simp only [declareModel, hparse, bind, Except.bind]
  rw [hitems]
  split
  · rename_i hdeclared
    obtain ⟨items, hget⟩ := OrderedMap.mem_names_iff.1 hdeclared
    have hrecord : declare (ns.model m.name) declared (.record (modelRecord ns m)) =
        .error (.repeatedType (ns.model m.name)) := by
      simp [declare, hget, Item.isRecord, h _ _ hget]
    rw [modelItems, List.foldlM_cons, hrecord]
    rfl
  · rename_i hdeclared
    have hrecord : declare (ns.model m.name) declared (.record (modelRecord ns m)) =
        .ok (declared.insert (ns.model m.name) [.record (modelRecord ns m)]) := by
      simp [declare, OrderedMap.get?_eq_none_iff.2 hdeclared]
    rw [modelItems, List.foldlM_cons, hrecord]
    exact foldlM_declare (by simp [Item.isRecord])

/-- All models are declared, or else the first whose identifier is there already is refused. -/
theorem foldlM_declareModel {seen : List String}
    (hparse : ∀ m ∈ models, parse (modelItems ns m) = .ok (modelItems ns m))
    (h : HasRecords declared) (hseen : ∀ s, s ∈ seen ↔ s ∈ declared.names) :
    models.foldlM (declareModel parse ns) declared =
      match firstRepeated? seen (models.map (ns.model ·.name)) with
      | some s => .error (.repeatedType s)
      | none   => .ok (declared.insertAll (models.map fun m => (ns.model m.name, modelItems ns m))) := by
  -- what is seen is what is declared, in some order, before each of the models
  induction models generalizing seen declared with
  | nil => rfl
  | cons m models ih =>
    obtain ⟨hm, hmodels⟩ := List.forall_mem_cons.1 hparse
    rw [List.foldlM_cons, declareModel_eq hm h, List.map_cons, firstRepeated?]
    simp only [hseen]
    split
    · rfl
    · have hnext : HasRecords (declared.insert (ns.model m.name) (modelItems ns m)) :=
        h.insert (by simp [modelItems, Item.isRecord])
      refine ih hmodels hnext fun s => ?_
      rw [OrderedMap.mem_names_insert, List.mem_cons, hseen]

/-- A parser that takes the code as it is changes nothing. -/
theorem emitParsed_eq (header : Option String)
    (hmodels : ∀ m ∈ models, parse (modelItems (.ofModels models c) m) =
      .ok (modelItems (.ofModels models c) m))
    (hclient : parse (clientItems (.ofModels models c) c) = .ok (clientItems (.ofModels models c) c)) :
    emitParsed parse models c header = emit models c header := by
  have hrecords : HasRecords ∅ := fun _ _ h => nomatch h
  have hseen : ∀ s, s ∈ [] ↔ s ∈ (∅ : OrderedMap (List Item)).names := fun _ => Iff.rfl
  rw [emitParsed, emit, foldlM_declareModel hmodels hrecords hseen]
  cases hrepeated : firstRepeated? [] (models.map ((TypeNames.ofModels models c).model ·.name)) with
  | some s => rfl
  | none =>
    obtain ⟨hnodup, -⟩ := firstRepeated?_eq_none_iff.1 hrepeated
    have hkeys : ((models.map fun m => ((TypeNames.ofModels models c).model m.name,
        modelItems (.ofModels models c) m)).map Prod.fst).Nodup := by rwa [List.map_map]
    have hvalues : (OrderedMap.ofList (models.map fun m => ((TypeNames.ofModels models c).model m.name,
        modelItems (.ofModels models c) m))).values.flatten =
          models.flatMap (modelItems (.ofModels models c)) := by
      rw [OrderedMap.values, OrderedMap.entries_ofList hkeys, List.map_map, List.flatMap_def]
      rfl
    simp only [hclient, bind, Except.bind, pure, Except.pure]
    rw [← hvalues]
    rfl

end Declared

/-! ## Code with valid names -/

/-- The names in the code of a model are valid. -/
structure ModelNamesValid (ns : TypeNames) (m : Model) : Prop where
  types : ∀ name, IsIdentifier (ns.model name)
  fields : ∀ f ∈ namedFields m, IsIdentifier f.name

/-- The names in the code of a client are valid. -/
structure ClientNamesValid (ns : TypeNames) (c : Client) : Prop where
  types : ∀ name, IsIdentifier (ns.model name)
  client : IsIdentifier ns.client
  functions : ∀ f ∈ methodFunctions ns c, IsIdentifier f.name
  arguments : ∀ m ∈ c.methods, ∀ a ∈ namedArguments m, IsIdentifier a.name

/-- The parser takes the code of models and clients as it is, as long as the names in it are valid. -/
structure TakesTemplates (parse : List Item → Except Failure (List Item)) : Prop where
  model : ∀ ns m, ModelNamesValid ns m → parse (modelItems ns m) = .ok (modelItems ns m)
  client : ∀ ns c, ClientNamesValid ns c → parse (clientItems ns c) = .ok (clientItems ns c)

section Valid

variable {models : List Model} {c : Client} {header : Option String} {e : Failure}

theorem modelNamesValid_ofModels (models : List Model) (c : Client) (m : Model) :
    ModelNamesValid (.ofModels models c) m where
  types := TypeNames.isIdentifier_model models c
  fields f hf := by
    have hname : f.name ∈ (namedFields m).map (·.name) := List.mem_map_of_mem hf
    rw [map_name_namedFields] at hname
    exact isIdentifier_of_mem_snakeIdentifiers hname

theorem clientNamesValid_ofModels (models : List Model) (c : Client) :
    ClientNamesValid (.ofModels models c) c where
  types := TypeNames.isIdentifier_model models c
  client := TypeNames.isIdentifier_client models c
  functions f hf := by
    obtain ⟨x, hx, rfl⟩ := List.mem_map.1 hf
    exact isIdentifier_of_mem_snakeIdentifiers (List.of_mem_zip hx).2
  arguments m _ a ha := by
    obtain ⟨x, hx, rfl⟩ := List.mem_map.1 ha
    exact isIdentifier_of_mem_snakeIdentifiers (List.of_mem_zip hx).2

/-- The check of identifiers is one of names. -/
theorem firstRepeated?_models (models : List Model) (c : Client) :
    firstRepeated? [] (models.map ((TypeNames.ofModels models c).model ·.name)) =
      (firstRepeated? [] (models.map (·.name))).map (TypeNames.ofModels models c).model := by
  rw [← firstRepeated?_map, List.map_map]
  · rfl
  · intro a ha b hb h
    exact TypeNames.model_injective (ha.resolve_right List.not_mem_nil)
      (hb.resolve_right List.not_mem_nil) h

theorem emit_eq_error_iff_firstRepeated? : emit models c header = .error e ↔
    ∃ name, firstRepeated? [] (models.map (·.name)) = some name ∧
      e = .repeatedType ((TypeNames.ofModels models c).model name) := by
  rw [emit, firstRepeated?_models]
  cases firstRepeated? [] (models.map (·.name)) <;> simp [eq_comm]

/-- The first model whose name another one has before is to blame. -/
theorem emit_eq_error_iff : emit models c header = .error e ↔
    ∃ before m after, models = before ++ m :: after ∧ (before.map (·.name)).Nodup ∧
      m.name ∈ before.map (·.name) ∧
      e = .repeatedType ((TypeNames.ofModels models c).model m.name) := by
  simp only [emit_eq_error_iff_firstRepeated?, firstRepeated?_eq_some_iff]
  constructor
  · rintro ⟨name, ⟨before, after, heq, hnodup, -, hname⟩, rfl⟩
    obtain ⟨before, rest, rfl, rfl, hrest⟩ := List.map_eq_append_iff.1 heq
    obtain ⟨m, after, rfl, rfl, rfl⟩ := List.map_eq_cons_iff.1 hrest
    exact ⟨before, m, after, rfl, hnodup, by simpa using hname, rfl⟩
  · rintro ⟨before, m, after, rfl, hnodup, hname, rfl⟩
    exact ⟨m.name, ⟨before.map (·.name), after.map (·.name), by simp, hnodup,
      List.disjoint_nil_right _, by simpa using hname⟩, rfl⟩

theorem exists_emit_eq_error_iff :
    (∃ e, emit models c header = .error e) ↔ ¬ (models.map (·.name)).Nodup := by
  have hnone : firstRepeated? [] (models.map (·.name)) = none ↔ (models.map (·.name)).Nodup := by
    rw [firstRepeated?_eq_none_iff, and_iff_left (List.disjoint_nil_right _)]
  rw [← hnone, ← ne_eq, Option.ne_none_iff_exists']
  simp only [emit_eq_error_iff_firstRepeated?]
  constructor
  · rintro ⟨_, name, hname, -⟩
    exact ⟨name, hname⟩
  · rintro ⟨name, hname⟩
    exact ⟨_, name, hname, rfl⟩

/-- The source of models and a client is not made exactly where two models have the same name, and
says which one is the first that has the name of another before it. This is so for any parser that the
code goes through, as long as it takes code with valid names. -/
theorem emission_fails_iff {parse : List Item → Except Failure (List Item)}
    (hparse : TakesTemplates parse) (models : List Model) (c : Client) (header : Option String) :
    emitParsed parse models c header = emit models c header ∧
    ((∃ e, emitParsed parse models c header = .error e) ↔ ¬ (models.map (·.name)).Nodup) ∧
    ∀ e, emitParsed parse models c header = .error e ↔
      ∃ before m after, models = before ++ m :: after ∧ (before.map (·.name)).Nodup ∧
        m.name ∈ before.map (·.name) ∧
        e = .repeatedType ((TypeNames.ofModels models c).model m.name) := by
  have heq : emitParsed parse models c header = emit models c header :=
    emitParsed_eq header (fun m _ => hparse.model _ m (modelNamesValid_ofModels models c m))
      (hparse.client _ c (clientNamesValid_ofModels models c))
  rw [heq]
  exact ⟨rfl, exists_emit_eq_error_iff, fun e => emit_eq_error_iff⟩

end Valid

/-- The names that an item declares. -/
def Item.names : Item → List String
  | .constant _ name _ => [name]
  | .record r          => r.name :: r.fields.map (·.name)
  | .implementation i  => i.functions.flatMap fun f => f.name :: f.parameters.map (·.name)

/-- Takes code in which all names are valid. -/
def parseNamed (items : List Item) : Except Failure (List Item) :=
  if ∀ s ∈ items.flatMap Item.names, IsIdentifier s then .ok items
  else .error (.malformed .root (.format "source"))

section Named

variable {ns : TypeNames} {m : Model} {c : Client} {s : String}

theorem names_modelItems (ns : TypeNames) (m : Model) : (modelItems ns m).flatMap Item.names =
    ns.model m.name :: ((namedFields m).map (·.name) ++ "new" :: ((namedFields m).map (·.name) ++
      ["fmt", "f", "render_value"])) := by
  simp [modelItems, Item.names, modelRecord, modelConstructor, modelDisplay, modelRendering,
    NamedField.recordField, NamedField.parameter, Function.comp_def]

theorem names_clientItems (ns : TypeNames) (c : Client) : (clientItems ns c).flatMap Item.names =
    "DEFAULT_BASE_URL" :: ns.client :: (["base_url", "transport", "new", "transport",
      "with_base_url", "base_url", "transport", "base_url", "transport"] ++
      (methodFunctions ns c).flatMap fun f => f.name :: f.parameters.map (·.name)) := by
  simp [clientItems_eq, Item.names, clientRecord, clientFunctions]

theorem ModelNamesValid.isIdentifier (h : ModelNamesValid ns m)
    (hs : s ∈ (modelItems ns m).flatMap Item.names) : IsIdentifier s := by
  have hnew : IsIdentifier "new" := by decide +kernel
  have hrest : ∀ s ∈ ["fmt", "f", "render_value"], IsIdentifier s := by decide +kernel
  have hfields : ∀ s ∈ (namedFields m).map (·.name), IsIdentifier s := List.forall_mem_map.2 h.fields
  rw [names_modelItems, List.mem_cons, List.mem_append, List.mem_cons, List.mem_append] at hs
  obtain rfl | hs | rfl | hs | hs := hs
  · exact h.types _
  · exact hfields s hs
  · exact hnew
  · exact hfields s hs
  · exact hrest s hs

theorem ClientNamesValid.isIdentifier (h : ClientNamesValid ns c)
    (hs : s ∈ (clientItems ns c).flatMap Item.names) : IsIdentifier s := by
  have hbase : IsIdentifier "DEFAULT_BASE_URL" := by decide +kernel
  have hfixed : ∀ s ∈ ["base_url", "transport", "new", "transport", "with_base_url", "base_url",
      "transport", "base_url", "transport"], IsIdentifier s := by decide +kernel
  rw [names_clientItems, List.mem_cons, List.mem_cons, List.mem_append, List.mem_flatMap] at hs
  obtain rfl | rfl | hs | ⟨f, hf, hs⟩ := hs
  · exact hbase
  · exact h.client
  · exact hfixed s hs
  · rcases List.mem_cons.1 hs with rfl | hs
    · exact h.functions f hf
    · obtain ⟨x, hx, rfl⟩ := List.mem_map.1 hf
      obtain ⟨a, ha, hname, -⟩ := exists_parameter_iff.1 (List.mem_map.1 hs)
      rw [← hname]
      exact h.arguments _ (List.of_mem_zip hx).1 a ha

end Named

theorem takesTemplates_parseNamed : TakesTemplates parseNamed where
  model _ _ h := if_pos fun _ => h.isIdentifier
  client _ _ h := if_pos fun _ => h.isIdentifier

/-- The identifier of the last of them is the one that counts for models of one name. -/
theorem pets_repeated :
    let models := ["Pet", "pet", "Pet"].map modelNamed
    let c : Client := { name := "Client", baseEndpoint := "", methods := [] }
    TakesTemplates parseNamed ∧
      (∃ e, emitParsed parseNamed models c none = .error e) ∧
      emitParsed parseNamed models c none = .error (.repeatedType "PetModel2") := by
  intro models c
  obtain ⟨-, hfails, herror⟩ := emission_fails_iff takesTemplates_parseNamed models c none
  have hidentifier : (TypeNames.ofModels models c).model "Pet" = "PetModel2" := by decide +kernel
  refine ⟨takesTemplates_parseNamed, hfails.2 (by decide), (herror _).2 ?_⟩
  exact ⟨["Pet", "pet"].map modelNamed, modelNamed "Pet", [], rfl, by decide, by decide,
    congrArg _ hidentifier.symm⟩

end TypedClient.Source
