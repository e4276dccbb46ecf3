import Mathlib.Data.List.Forall2
import TypedClient.Proofs.FreshName
import TypedClient.Proofs.OrderedMap
import TypedClient.Proofs.Properties
import TypedClient.Proofs.Run
import TypedClient.Schema.Catalog

/-!
# How the catalog grows

Converting types adds hoisted definitions only, and never one under a name that was taken before. So
the definitions of the document's own schemas are found in the end as they were declared.
-/

namespace TypedClient.Schema

namespace Catalog

variable {c c' c'' : Catalog} {name : String}

/-- From `c` to `c'` definitions are hoisted, under names that were not taken. -/
structure Hoists (c c' : Catalog) : Prop where
  declared : c'.declared = c.declared
  aliases : c'.aliases = c.aliases
  taken : ∀ name ∈ c.taken, name ∈ c'.taken
  fresh : ∀ name ∈ c'.hoisted.names, name ∈ c.hoisted.names ∨ name ∉ c.taken

theorem Hoists.refl (c : Catalog) : c.Hoists c := ⟨rfl, rfl, fun _ h => h, fun _ h => .inl h⟩

theorem Hoists.trans (h : c.Hoists c') (h' : c'.Hoists c'') : c.Hoists c'' where
  declared := h'.declared.trans h.declared
  aliases := h'.aliases.trans h.aliases
  taken name hname := h'.taken name (h.taken name hname)
  fresh name hname := by
    rcases h'.fresh name hname with hname | hname
    · exact h.fresh name hname
    · exact .inr fun htaken => hname (h.taken name htaken)

theorem firstFree_claim (c : Catalog) (place : String) :
    FirstFree c.taken (numbered (hoistBase place)) (c.claim place).1 :=
  firstFree_freshName c.taken ((numbered_injective _).comp fun _ _ => Nat.succ.inj)

theorem claim_not_mem (c : Catalog) (place : String) : (c.claim place).1 ∉ c.taken :=
  (c.firstFree_claim place).free

theorem hoists_claim (c : Catalog) (place : String) : c.Hoists (c.claim place).2 :=
  ⟨rfl, rfl, fun _ h => List.mem_cons_of_mem _ h, fun _ h => .inl h⟩

/-- A definition is hoisted under a name that was claimed. -/
theorem Hoists.hoist (h : c.Hoists c') {d : Definition} (hname : d.name ∉ c.taken) :
    c.Hoists (c'.hoist d) where
  declared := h.declared
  aliases := h.aliases
  taken := h.taken
  fresh name hmem := by
    rcases OrderedMap.mem_names_insert.1 hmem with rfl | hmem
    · exact .inr hname
    · exact h.fresh name hmem

end Catalog

/-! ## Conversions -/

namespace Conversion

variable {α β : Type} {Q : α → Prop} {R : β → Prop}

/-- The conversion does nothing but hoist definitions, and `Q` holds for what it makes. -/
def Yields (x : Conversion α) (Q : α → Prop) : Prop :=
  ∀ c, wp x c (fun a c' => c.Hoists c' ∧ Q a) (fun _ _ => True)

theorem Yields.mono {Q' : α → Prop} {x : Conversion α} (hx : Yields x Q) (h : ∀ a, Q a → Q' a) :
    Yields x Q' :=
  fun c => (hx c).mono (fun a _ ha => ⟨ha.1, h a ha.2⟩) fun _ _ h => h

theorem Yields.pure {a : α} (ha : Q a) : Yields (Pure.pure a) Q := fun c => ⟨.refl c, ha⟩

theorem Yields.throw (e : Failure) : Yields (throw e) Q := fun _ => trivial

/-- A conversion that only looks something up. -/
theorem Yields.of_unchanged {x : Conversion α}
    (hx : ∀ c, wp x c (fun a c' => c' = c ∧ Q a) fun _ _ => True) : Yields x Q :=
  fun c => (hx c).imp fun _ _ ha => ⟨ha.1 ▸ .refl c, ha.2⟩

/-- What comes after starts from a catalog that has more hoisted. -/
theorem Yields.before {x : Conversion α} {f : α → Conversion β} {post : β → Catalog → Prop}
    (hx : Yields x Q) {c : Catalog}
    (hf : ∀ a c', c.Hoists c' → Q a → wp (f a) c' post fun _ _ => True) :
    wp (x >>= f) c post fun _ _ => True :=
  wp_bind.2 ((hx c).imp fun a c' ha => hf a c' ha.1 ha.2)

theorem Yields.bind {x : Conversion α} {f : α → Conversion β} (hx : Yields x Q)
    (hf : ∀ a, Q a → Yields (f a) R) : Yields (x >>= f) R :=
  fun _ => hx.before fun a c' hc ha => (hf a ha c').imp fun _ _ hb => ⟨hc.trans hb.1, hb.2⟩

theorem Yields.map {x : Conversion α} {f : α → β} (hx : Yields x Q) (hf : ∀ a, Q a → R (f a)) :
    Yields (f <$> x) R := by
  intro c
  rw [wp_map]
  exact (hx c).mono (fun a _ ha => ⟨ha.1, hf a ha.2⟩) fun _ _ h => h

theorem Yields.mapM {R : α → β → Prop} {f : α → Conversion β} {items : List α}
    (hf : ∀ a ∈ items, Yields (f a) (R a)) :
    Yields (items.mapM f) (List.Forall₂ R items) := by
  intro c
  refine wp_mapM (I := fun done results c' => c.Hoists c' ∧ List.Forall₂ R done results)
    ⟨.refl c, .nil⟩ fun done results a c' ha hc => ?_
  exact (hf a ha c').mono (fun b _ hb => ⟨hc.1.trans hb.1, List.rel_append hc.2 (.cons hb.2 .nil)⟩)
    fun _ _ h => h

/-- As `Yields.mapM`, for what is read off the items and off what is made of them. -/
theorem Yields.mapM_map {γ : Type} {f : α → Conversion β} {g : α → γ} {k : β → γ} {items : List α}
    (hf : ∀ a ∈ items, Yields (f a) fun b => k b = g a) :
    Yields (items.mapM f) fun made => made.map k = items.map g := by
  refine (Yields.mapM hf).mono fun made hmade => ?_
  rw [← List.forall₂_eq_eq_eq, List.forall₂_map_left_iff, List.forall₂_map_right_iff]
  exact hmade.flip

/-- The conversion does nothing but hoist definitions. -/
def Hoists (x : Conversion α) : Prop := Yields x fun _ => True

theorem Yields.hoists {x : Conversion α} (hx : Yields x Q) : Hoists x :=
  hx.mono fun _ _ => trivial

theorem Hoists.yields_bind {x : Conversion α} {f : α → Conversion β} (hx : Hoists x)
    (hf : ∀ a, Yields (f a) R) : Yields (x >>= f) R :=
  Yields.bind hx fun a _ => hf a

theorem Hoists.pure (a : α) : Hoists (Pure.pure a) := Yields.pure trivial

theorem Hoists.throw (e : Failure) : Hoists (throw e : Conversion α) := Yields.throw e

theorem Hoists.bind {x : Conversion α} {f : α → Conversion β} (hx : Hoists x)
    (hf : ∀ a, Hoists (f a)) : Hoists (x >>= f) :=
  hx.yields_bind hf

theorem Hoists.map {x : Conversion α} {f : α → β} (hx : Hoists x) : Hoists (f <$> x) :=
  Yields.map hx fun _ _ => trivial

theorem Hoists.mapM {f : α → Conversion β} {items : List α} (hf : ∀ a ∈ items, Hoists (f a)) :
    Hoists (items.mapM f) :=
  (Yields.mapM hf).hoists

theorem wp_target (kind : ReferenceKind) (reference : String) (place : Location) (c : Catalog) :
    wp (Conversion.target kind reference place) c
      (fun name c' => c' = c ∧ kind.target? reference = some name) fun _ _ => True := by
  unfold Conversion.target ReferenceKind.target
  cases kind.target? reference with
  | some name => exact ⟨rfl, rfl⟩
  | none => trivial

theorem Yields.target (kind : ReferenceKind) (reference : String) (place : Location) :
    Yields (Conversion.target kind reference place) (kind.target? reference = some ·) :=
  .of_unchanged (wp_target kind reference place)

theorem Hoists.target (kind : ReferenceKind) (reference : String) (place : Location) :
    Hoists (Conversion.target kind reference place) :=
  (Yields.target kind reference place).hoists

/-- A definition that is made under a claimed name is hoisted. -/
theorem Hoists.claimed {place : String} {x : String → Conversion Definition}
    (hx : ∀ name, Yields (x name) (·.name = name)) :
    Hoists (do let name ← Conversion.claim place; Conversion.hoist (← x name)) := by
  intro c
  have hclaimed : wp (Conversion.claim place) c
      (fun name c' => c.Hoists c' ∧ name ∉ c.taken) (fun _ _ => True) :=
    ⟨c.hoists_claim place, c.claim_not_mem place⟩
  rw [wp_bind]
  refine hclaimed.mono (fun name c' hname => ?_) fun _ _ h => h
  rw [wp_bind]
  refine (hx name c').mono (fun d c'' hd => ?_) fun _ _ h => h
  exact ⟨(hname.1.trans hd.1).hoist (hd.2.symm ▸ hname.2), trivial⟩

end Conversion

/-! ## Properties -/

/-- `made` are the properties `declared` and after them one for each of `written`, which are names with
nullable markers. A property must be given if `required` has its name. -/
def Adds (required : List String) (written : List (String × Bool)) (declared made : List Property) :
    Prop :=
  ∃ ps : List Property, made = ps.foldl declareProperty declared ∧
    ps.map (fun p => (p.name, p.required, p.nullable)) =
      written.map fun e => (e.1, required.contains e.1, e.2)

namespace Adds

variable {required : List String} {written more : List (String × Bool)}
  {declared made made' : List Property} {p : Property}

theorem refl (required : List String) (declared : List Property) :
    Adds required [] declared declared :=
  ⟨[], rfl, rfl⟩

theorem trans (h : Adds required written declared made) (h' : Adds required more made made') :
    Adds required (written ++ more) declared made' := by
  obtain ⟨ps, rfl, hps⟩ := h
  obtain ⟨qs, rfl, hqs⟩ := h'
  exact ⟨ps ++ qs, List.foldl_append.symm, by rw [List.map_append, hps, hqs, List.map_append]⟩

/-- One more property. -/
theorem declare (hp : p.required = required.contains p.name) :
    Adds required [(p.name, p.nullable)] declared (declareProperty declared p) :=
  ⟨[p], rfl, by rw [List.map_singleton, List.map_singleton, hp]⟩

theorem mem_names (h : Adds required written declared made) {key : String} :
    key ∈ made.map (·.name) ↔ key ∈ written.map Prod.fst ∨ key ∈ declared.map (·.name) := by
  obtain ⟨ps, rfl, hps⟩ := h
  have hnames := congrArg (List.map Prod.fst) hps
  rw [List.map_map, List.map_map] at hnames
  rw [mem_names_foldl_declareProperty]
  exact or_congr_left (by rw [show ps.map (·.name) = written.map Prod.fst from hnames])

/-- The property that counts is required if its name is, and carries the marker that was written last. -/
theorem map_lastDeclaration? (h : Adds required written [] made) (key : String) :
    (lastDeclaration? made key).map (fun p => (p.required, p.nullable)) =
      (written.findRev? (·.1 = key)).map fun e => (required.contains key, e.2) := by
  obtain ⟨ps, rfl, hps⟩ := h
  rw [foldl_declareProperty, lastDeclaration?_declaredOnce, lastDeclaration?,
    List.findRev?_eq_find?_reverse, List.findRev?_eq_find?_reverse]
  have hfind := congrArg (fun all => (all.reverse.find? (·.1 = key)).map Prod.snd) hps
  simp only [← List.map_reverse, List.find?_map, Option.map_map, Function.comp_def] at hfind
  rw [hfind]
  apply Option.map_congr
  intro e he
  have hkey : e.1 = key := by simpa using List.find?_some he
  rw [hkey]

end Adds

/-! ## Operations -/

/-- What an operation is found by: its path and its verb. -/
def Operation.call (o : Operation) : String × Verb := (o.path, o.verb)

/-! ## Named schemas -/

/-- The definition extends what the references among the parts lead to, and it has the properties of
the parts that are written inline. -/
structure Definition.MadeOf {σ : Type} (d : Definition) (parts : σ → Prop)
    (reference : σ → Option String) (properties : σ → List String) : Prop where
  bases : ∀ base, base ∈ d.bases ↔ ∃ x, parts x ∧ ∃ r, reference x = some r ∧
    ReferenceKind.schema.target? r = some base
  properties : ∀ key, key ∈ d.properties.map (·.name) ↔ ∃ x, parts x ∧ reference x = none ∧
    key ∈ properties x

/-- What the parts are taken to be does not matter. -/
theorem Definition.MadeOf.image {σ τ : Type} {d : Definition} {parts : σ → Prop}
    {parts' : τ → Prop} {reference : τ → Option String} {properties : τ → List String} (f : σ → τ)
    (h : d.MadeOf parts (fun x => reference (f x)) (fun x => properties (f x)))
    (hparts : ∀ y, parts' y ↔ ∃ x, parts x ∧ f x = y) : d.MadeOf parts' reference properties := by
  refine ⟨fun base => ?_, fun key => ?_⟩
  · simp [h.bases, hparts]
  · simp [h.properties, hparts]

section Converted

variable {σ : Type} {schemas : OrderedMap σ} {object : σ → Prop} {Made : σ → Definition → Prop}
  {done : List (String × σ)} {c c' : Catalog} {name : String} {s : σ} {d : Definition}

/-- The catalog once the schemas of `done` are converted: of those, the objects are declared, each
under its name and with the definition made from it. -/
structure Converted (schemas : OrderedMap σ) (object : σ → Prop) (Made : σ → Definition → Prop)
    (done : List (String × σ)) (c : Catalog) : Prop where
  within : ∀ e ∈ done, e ∈ schemas.entries
  made : ∀ e ∈ done, object e.2 → ∃ d, c.declared.get? e.1 = some d ∧ Made e.2 d
  declared : ∀ name ∈ c.declared.names, ∃ e ∈ done, e.1 = name ∧ object e.2
  taken : ∀ name ∈ schemas.names, name ∈ c.taken
  fresh : ∀ name ∈ c.hoisted.names, name ∉ schemas.names

theorem Converted.withNames (object : σ → Prop) (Made : σ → Definition → Prop) :
    Converted schemas object Made [] (Catalog.withNames schemas.names) :=
  ⟨nofun, nofun, nofun, fun _ h => h, nofun⟩

theorem Converted.hoists (h : Converted schemas object Made done c) (hc : c.Hoists c') :
    Converted schemas object Made done c' where
  within := h.within
  made := hc.declared ▸ h.made
  declared := hc.declared ▸ h.declared
  taken name hname := hc.taken name (h.taken name hname)
  fresh name hname hmem := (hc.fresh name hname).elim (fun hold => h.fresh name hold hmem)
    fun hnew => hnew (h.taken name hmem)

theorem Converted.declare (h : Converted schemas object Made done c)
    (hmem : (name, s) ∈ schemas.entries) (hobject : object s) (hmade : Made s d)
    (hname : d.name = name) :
    Converted schemas object Made (done ++ [(name, s)]) (c.declare d) where
  within e he := by
    rcases List.mem_append.1 he with he | he
    · exact h.within e he
    · exact List.mem_singleton.1 he ▸ hmem
  made e he hobject := by
    subst hname
    rw [Catalog.declare, OrderedMap.get?_insert]
    split
    -- the definition may be declared already only by the same entry, since names are distinct
    · rename_i heq
      have he : e ∈ schemas.entries := by
        rcases List.mem_append.1 he with he | he
        · exact h.within e he
        · exact List.mem_singleton.1 he ▸ hmem
      have hs : e.2 = s := Option.some.inj ((OrderedMap.get?_eq_some_iff.2 he).symm.trans
        (heq ▸ OrderedMap.get?_eq_some_iff.2 hmem))
      exact ⟨d, rfl, hs ▸ hmade⟩
    · rename_i hne
      rcases List.mem_append.1 he with he | he
      · exact h.made e he hobject
      · exact absurd (List.mem_singleton.1 he ▸ rfl) hne
  declared key hkey := by
    rcases OrderedMap.mem_names_insert.1 hkey with rfl | hkey
    · exact ⟨_, List.mem_append_right _ List.mem_cons_self, hname.symm, hobject⟩
    · obtain ⟨e, he, hekey⟩ := h.declared key hkey
      exact ⟨e, List.mem_append_left _ he, hekey⟩
  taken := h.taken
  fresh := h.fresh

theorem Converted.addAlias (h : Converted schemas object Made done c)
    (hmem : (name, s) ∈ schemas.entries) (hobject : ¬ object s) (type : TypeRef) :
    Converted schemas object Made (done ++ [(name, s)]) (c.addAlias name type) where
  within e he := by
    rcases List.mem_append.1 he with he | he
    · exact h.within e he
    · exact List.mem_singleton.1 he ▸ hmem
  made e he hobject' := by
    rcases List.mem_append.1 he with he | he
    · exact h.made e he hobject'
    · cases List.mem_singleton.1 he
      exact absurd hobject' hobject
  declared key hkey := by
    obtain ⟨e, he, hekey⟩ := h.declared key hkey
    exact ⟨e, List.mem_append_left _ he, hekey⟩
  taken := h.taken
  fresh := h.fresh

/-- In the end a named schema that is an object has its definition. -/
theorem Converted.definition (h : Converted schemas object Made schemas.entries c)
    (hmem : (name, s) ∈ schemas.entries) (hobject : object s) :
    ∃ d, c.definitions.get? name = some d ∧ Made s d := by
  obtain ⟨d, hd, hmade⟩ := h.made _ hmem hobject
  -- a hoisted definition has taken no name of a schema, and so hides none that is declared
  have hfresh : name ∉ c.hoisted.names := fun hname =>
    h.fresh name hname (List.mem_map_of_mem hmem)
  exact ⟨d, (OrderedMap.get?_append hfresh).trans hd, hmade⟩

/-- A named schema that is no object has none. -/
theorem Converted.not_definition (h : Converted schemas object Made schemas.entries c)
    (hmem : (name, s) ∈ schemas.entries) (hobject : ¬ object s) :
    name ∉ c.definitions.names := by
  intro hname
  rcases OrderedMap.mem_names_insertAll.1 hname with hname | hname
  · exact h.fresh name hname (List.mem_map_of_mem hmem)
  · obtain ⟨e, he, rfl, hobject'⟩ := h.declared name hname
    have hs : e.2 = s := Option.some.inj ((OrderedMap.get?_eq_some_iff.2 he).symm.trans
      (OrderedMap.get?_eq_some_iff.2 hmem))
    exact hobject (hs ▸ hobject')

end Converted

end TypedClient.Schema
