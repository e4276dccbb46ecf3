import TypedClient.Proofs.Conversion.Catalog
import TypedClient.Proofs.Properties
import TypedClient.Proofs.Resolution.Denotation
import TypedClient.Schema.Selection

/-!
# Hoisted definitions are kept

Each name that is claimed gets a definition, which is never replaced. What refers to one was either
written in the document or made together with the definition.
-/

namespace TypedClient.Schema

/-! ## References -/

/-- A type refers to known names only. -/
def TypeRef.Within (type : TypeRef) (known : String → Prop) : Prop :=
  ∀ name, type.innermost = .reference name → known name

/-- Properties of different names, whose types refer to known names. -/
structure SoundProperties (known : String → Prop) (properties : List Property) : Prop where
  nodup : (properties.map (·.name)).Nodup
  types : ∀ p ∈ properties, p.type.Within known

structure Definition.Sound (known : String → Prop) (d : Definition) : Prop where
  properties : SoundProperties known d.properties
  bases : ∀ base ∈ d.bases, known base

/-- The types of an operation refer to known names. -/
structure Operation.Within (o : Operation) (known : String → Prop) : Prop where
  parameters : ∀ p ∈ o.parameters, p.type.Within known
  response : ∀ r, o.response = some r → r.type.Within known

section Known

variable {known known' : String → Prop} {type : TypeRef} {name : String} {p : Property}
  {properties : List Property} {d : Definition}

theorem TypeRef.within_reference_iff : (TypeRef.reference name).Within known ↔ known name := by
  simp [TypeRef.Within, TypeRef.innermost]

theorem TypeRef.within_any : TypeRef.any.Within known := nofun

theorem TypeRef.within_primitive {format : Option String} {values : List String} :
    (TypeRef.primitive name format values).Within known := nofun

theorem TypeRef.Within.array (h : type.Within known) : type.array.Within known := h

theorem TypeRef.Within.map (h : type.Within known) : type.map.Within known := h

theorem TypeRef.Within.mono (h : type.Within known) (hknown : ∀ name, known name → known' name) :
    type.Within known' :=
  fun name hname => hknown name (h name hname)

theorem SoundProperties.nil : SoundProperties known [] := ⟨List.nodup_nil, nofun⟩

theorem SoundProperties.mono (h : SoundProperties known properties)
    (hknown : ∀ name, known name → known' name) : SoundProperties known' properties :=
  ⟨h.nodup, fun p hp => (h.types p hp).mono hknown⟩

theorem Definition.Sound.mono (h : d.Sound known) (hknown : ∀ name, known name → known' name) :
    d.Sound known' :=
  ⟨h.properties.mono hknown, fun base hbase => hknown base (h.bases base hbase)⟩

theorem nodup_declareProperty (h : (properties.map (·.name)).Nodup) :
    ((declareProperty properties p).map (·.name)).Nodup := by
  fun_induction declareProperty properties p with
  | case1 => exact List.nodup_singleton _
  | case2 q qs hname => rwa [List.map_cons, hname] at h
  | case3 q qs hname ih =>
    rw [List.map_cons, List.nodup_cons] at h ⊢
    refine ⟨?_, ih h.2⟩
    rw [mem_names_declareProperty, not_or]
    exact ⟨hname, h.1⟩

theorem SoundProperties.declare (h : SoundProperties known properties) (hp : p.type.Within known) :
    SoundProperties known (declareProperty properties p) where
  nodup := nodup_declareProperty h.nodup
  types q hq := by
    rcases mem_of_mem_declareProperty hq with rfl | hq
    · exact hp
    · exact h.types q hq

theorem Operation.Within.mono {o : Operation} (h : o.Within known)
    (hknown : ∀ name, known name → known' name) : o.Within known' :=
  ⟨fun p hp => (h.parameters p hp).mono hknown, fun r hr => (h.response r hr).mono hknown⟩

theorem mem_of_mem_overrideParameter {ps : List Parameter} {p q : Parameter}
    (h : p ∈ overrideParameter ps q) : p = q ∨ p ∈ ps := by
  fun_induction overrideParameter ps q with grind

/-- Of an operation's parameters each is its own or one of its path. -/
theorem mem_of_mem_mergeParameters {inherited own : List Parameter} {p : Parameter}
    (h : p ∈ mergeParameters inherited own) : p ∈ inherited ∨ p ∈ own := by
  unfold mergeParameters at h
  induction own generalizing inherited with
  | nil => exact .inl h
  | cons q own ih =>
    rcases ih h with h | h
    · exact (mem_of_mem_overrideParameter h).elim (fun heq => .inr (heq ▸ List.mem_cons_self)) .inl
    · exact .inr (List.mem_cons_of_mem _ h)

end Known

/-! ## Catalogs -/

namespace Catalog

variable {written : String → Prop} {reserved pending : List String} {c c' c'' : Catalog}
  {name : String} {d : Definition}

/-- A name that the document refers to itself, or that a definition is hoisted under. -/
def Known (written : String → Prop) (c : Catalog) (name : String) : Prop :=
  written name ∨ name ∈ c.hoisted.names

/-- The names taken are those that were reserved from the beginning, those of hoisted definitions, and
the pending ones, which are claimed for definitions that are still made; none is taken twice. -/
structure Tidy (written : String → Prop) (reserved pending : List String) (c : Catalog) : Prop where
  suffix : reserved <:+ c.taken
  nodup : c.taken.Nodup
  taken : c.taken.Perm (pending ++ c.hoisted.names ++ reserved)
  keys : ∀ e ∈ c.hoisted.entries, e.2.name = e.1
  sound : ∀ e ∈ c.hoisted.entries, e.2.Sound (c.Known written)

/-- What is hoisted comes after what was there. -/
structure Extends (c c' : Catalog) : Prop where
  declared : c'.declared = c.declared
  aliases : c'.aliases = c.aliases
  hoisted : c.hoisted.entries <+: c'.hoisted.entries

theorem Extends.refl (c : Catalog) : c.Extends c := ⟨rfl, rfl, List.prefix_rfl⟩

theorem Extends.trans (h : c.Extends c') (h' : c'.Extends c'') : c.Extends c'' :=
  ⟨h'.declared.trans h.declared, h'.aliases.trans h.aliases, h.hoisted.trans h'.hoisted⟩

theorem Extends.known (h : c.Extends c') (hname : c.Known written name) : c'.Known written name :=
  hname.imp_right fun hmem => (h.hoisted.map Prod.fst).subset hmem

theorem extends_claim (c : Catalog) (place : String) : c.Extends (c.claim place).2 :=
  ⟨rfl, rfl, List.prefix_rfl⟩

theorem Tidy.claim (h : Tidy written reserved pending c) (place : String) :
    Tidy written reserved ((c.claim place).1 :: pending) (c.claim place).2 where
  suffix := h.suffix.trans (List.suffix_cons _ _)
  nodup := List.nodup_cons.2 ⟨c.claim_not_mem place, h.nodup⟩
  taken := h.taken.cons _
  keys := h.keys
  sound := h.sound

theorem entries_hoist (h : Tidy written reserved (d.name :: pending) c) :
    (c.hoist d).hoisted.entries = c.hoisted.entries ++ [(d.name, d)] := by
  have hnodup := h.taken.nodup_iff.1 h.nodup
  have hnew : d.name ∉ c.hoisted.names := by
    intro hmem
    rw [List.cons_append, List.cons_append, List.nodup_cons] at hnodup
    exact hnodup.1 (by simp [hmem])
  exact OrderedMap.entries_insert hnew

theorem extends_hoist (c : Catalog) (h : Tidy written reserved (d.name :: pending) c) :
    c.Extends (c.hoist d) :=
  ⟨rfl, rfl, entries_hoist h ▸ List.prefix_append _ _⟩

/-- A definition under a claimed name settles the claim. -/
theorem Tidy.hoist (h : Tidy written reserved (d.name :: pending) c)
    (hd : d.Sound (c.Known written)) : Tidy written reserved pending (c.hoist d) where
  suffix := h.suffix
  nodup := h.nodup
  taken := by
    have hnames : (c.hoist d).hoisted.names = c.hoisted.names ++ [d.name] := by
      rw [OrderedMap.names, entries_hoist h, List.map_append]
      rfl
    rw [hnames]
    refine h.taken.trans (List.Perm.append_right reserved ?_)
    rw [← List.append_assoc, List.cons_append]
    exact (List.perm_append_singleton _ _).symm
  keys e he := by
    rw [entries_hoist h] at he
    rcases List.mem_append.1 he with he | he
    · exact h.keys e he
    · rw [List.mem_singleton.1 he]
  sound e he := by
    have hknown : ∀ name, c.Known written name → (c.hoist d).Known written name :=
      fun _ => (c.extends_hoist h).known
    rw [entries_hoist h] at he
    rcases List.mem_append.1 he with he | he
    · exact (h.sound e he).mono hknown
    · rw [List.mem_singleton.1 he]
      exact hd.mono hknown

end Catalog

/-! ## Conversions -/

namespace Conversion

variable {written : String → Prop} {reserved : List String} {c c' : Catalog} {α β : Type}
  {Q : α → Catalog → Prop} {R : β → Catalog → Prop}

/-- From `c` the conversion leads to a tidy catalog in which nothing is lost, whatever names are
pending, and `Q` holds for what it makes. -/
def Fills (written : String → Prop) (reserved : List String) (c : Catalog) (x : Conversion α)
    (Q : α → Catalog → Prop) : Prop :=
  ∀ pending, c.Tidy written reserved pending →
    wp x c (fun a c' => c'.Tidy written reserved pending ∧ c.Extends c' ∧ Q a c') fun _ _ => True

theorem Fills.mono {Q' : α → Catalog → Prop} {x : Conversion α} (hx : Fills written reserved c x Q)
    (h : ∀ a c', Q a c' → Q' a c') : Fills written reserved c x Q' :=
  fun pending hc => (hx pending hc).imp fun a c' ha => ⟨ha.1, ha.2.1, h a c' ha.2.2⟩

theorem Fills.pure {a : α} (ha : Q a c) : Fills written reserved c (Pure.pure a) Q :=
  fun _ hc => ⟨hc, .refl c, ha⟩

theorem Fills.throw (e : Failure) : Fills written reserved c (throw e) Q := fun _ _ => trivial

theorem Fills.of_unchanged {P : α → Prop} {x : Conversion α}
    (hx : wp x c (fun a c' => c' = c ∧ P a) fun _ _ => True) :
    Fills written reserved c x fun a _ => P a := by
  intro pending hc
  refine hx.imp fun a c' ha => ?_
  obtain ⟨rfl, ha⟩ := ha
  exact ⟨hc, .refl c', ha⟩

theorem Fills.bind {x : Conversion α} {f : α → Conversion β} (hx : Fills written reserved c x Q)
    (hf : ∀ a c', c.Extends c' → Q a c' → Fills written reserved c' (f a) R) :
    Fills written reserved c (x >>= f) R := by
  intro pending hc
  rw [wp_bind]
  refine (hx pending hc).imp fun a c' ha => ?_
  obtain ⟨htidy, hextends, ha⟩ := ha
  exact (hf a c' hextends ha pending htidy).imp
    fun b c'' hb => ⟨hb.1, hextends.trans hb.2.1, hb.2.2⟩

theorem Fills.map {x : Conversion α} {f : α → β} (hx : Fills written reserved c x Q)
    (hf : ∀ a c', Q a c' → R (f a) c') : Fills written reserved c (f <$> x) R := by
  intro pending hc
  rw [wp_map]
  exact (hx pending hc).imp fun a c' ha => ⟨ha.1, ha.2.1, hf a c' ha.2.2⟩

/-- What holds for each item and its result must not be lost while the catalog grows. -/
theorem Fills.mapM_forall₂ {R : α → β → Catalog → Prop} {f : α → Conversion β} {items : List α}
    (hf : ∀ a ∈ items, ∀ c', c.Extends c' → Fills written reserved c' (f a) (R a))
    (hmono : ∀ a b c' c'', c'.Extends c'' → R a b c' → R a b c'') :
    Fills written reserved c (items.mapM f) fun bs c' =>
      List.Forall₂ (fun a b => R a b c') items bs := by
  intro pending hc
  refine wp_mapM (I := fun done results c' => c'.Tidy written reserved pending ∧ c.Extends c' ∧
    List.Forall₂ (fun a b => R a b c') done results) ⟨hc, .refl c, .nil⟩ ?_
  intro done results a c' ha hc'
  obtain ⟨htidy, hextends, hresults⟩ := hc'
  refine (hf a ha c' hextends pending htidy).imp fun b c'' hb => ⟨hb.1, hextends.trans hb.2.1, ?_⟩
  exact List.rel_append (hresults.imp fun a b => hmono a b c' c'' hb.2.1) (.cons hb.2.2 .nil)

theorem Fills.mapM {f : α → Conversion β} {items : List α}
    (hf : ∀ a ∈ items, ∀ c', c.Extends c' → Fills written reserved c' (f a) R)
    (hmono : ∀ b c' c'', c'.Extends c'' → R b c' → R b c'') :
    Fills written reserved c (items.mapM f) fun bs c' => ∀ b ∈ bs, R b c' := by
  refine (Fills.mapM_forall₂ hf fun _ => hmono).mono fun bs c' hbs => ?_
  clear hf
  induction hbs with
  | nil => exact nofun
  | cons hb _ ih => exact List.forall_mem_cons.2 ⟨hb, ih⟩

/-- As `Fills.mapM`, for lists that are put together. -/
theorem Fills.flatten {f : α → Conversion (List β)} {items : List α}
    (hf : ∀ a ∈ items, ∀ c', c.Extends c' →
      Fills written reserved c' (f a) fun bs c'' => ∀ b ∈ bs, R b c'')
    (hmono : ∀ b c' c'', c'.Extends c'' → R b c' → R b c'') :
    Fills written reserved c (do
      let made ← items.mapM f
      Pure.pure made.flatten) fun bs c' => ∀ b ∈ bs, R b c' := by
  have hlists := Fills.mapM hf fun _ c' c'' hextends hbs b hb => hmono b c' c'' hextends (hbs b hb)
  refine hlists.bind fun made c' _ hmade => .pure fun b hb => ?_
  obtain ⟨bs, hbs, hb⟩ := List.mem_flatten.1 hb
  exact hmade bs hbs b hb

/-- What is made is the result of a run. -/
theorem Fills.run {x : Conversion α} (hx : Fills written reserved c x Q) :
    Fills written reserved c x fun a c' => Q a c' ∧ x.run c = (.ok a, c') :=
  fun pending hc => (hx pending hc).run.mono
    (fun _ _ ⟨⟨htidy, hextends, ha⟩, hrun⟩ => ⟨htidy, hextends, ha, hrun⟩) fun _ _ _ => trivial

theorem Fills.and_yields {P : α → Prop} {x : Conversion α} (hx : Fills written reserved c x Q)
    (hP : Yields x P) : Fills written reserved c x fun a c' => Q a c' ∧ P a :=
  hx.run.mono fun _ _ ha => ⟨ha.1, ((hP c).of_ok ha.2).2⟩

theorem Fills.target (kind : ReferenceKind) (reference : String) (place : Location) :
    Fills written reserved c (Conversion.target kind reference place)
      fun name _ => kind.target? reference = some name :=
  .of_unchanged (wp_target kind reference place c)

theorem Fills.reference {r : String} {l : Location}
    (h : ∀ name, ReferenceKind.schema.target? r = some name → written name) :
    Fills written reserved c (TypeRef.reference <$> Conversion.target .schema r l)
      fun type c' => type.Within (c'.Known written) :=
  (Fills.target _ _ _).map fun name _ htarget => TypeRef.within_reference_iff.2 (.inl (h name htarget))

/-- A definition that is made under a claimed name is kept under this name, which is new. -/
theorem Fills.claimed {place : String} {x : String → Conversion Definition}
    (hx : ∀ name c', c.Extends c' → Fills written reserved c' (x name) fun d c'' =>
      d.name = name ∧ d.Sound (c''.Known written)) :
    Fills written reserved c (do let name ← Conversion.claim place; Conversion.hoist (← x name))
      fun type c' => ∃ name, type = .reference name ∧ name ∉ c.taken ∧ name ∈ c'.hoisted.names := by
  intro pending hc
  rw [wp_bind]
  change wp (x (c.claim place).1 >>= Conversion.hoist) (c.claim place).2 _ _
  rw [wp_bind]
  refine (hx _ _ (c.extends_claim place) _ (hc.claim place)).imp fun d c' hd => ?_
  obtain ⟨htidy, hextends, hname, hsound⟩ := hd
  rw [← hname] at htidy
  exact ⟨htidy.hoist hsound, ((c.extends_claim place).trans hextends).trans (c'.extends_hoist htidy),
    d.name, rfl, hname ▸ c.claim_not_mem place, OrderedMap.mem_names_insert.2 (.inl rfl)⟩

end Conversion

/-! ## Named schemas -/

namespace Catalog

variable {σ : Type} {written : String → Prop} {reserved : List String} {object : σ → Bool}
  {done : List (String × σ)} {c c' : Catalog} {name : String} {s : σ} {d : Definition}
  {type : TypeRef}

/-- The catalog once the schemas of `done` are converted: of those, the objects are declared and the
others are aliases, in their order, and all that is hoisted on the way is kept. -/
structure Filled (written : String → Prop) (reserved : List String) (object : σ → Bool)
    (done : List (String × σ)) (c : Catalog) : Prop where
  tidy : c.Tidy written reserved []
  declared : c.declared.names = (done.filter fun e => object e.2).map Prod.fst
  aliases : c.aliases.names = (done.filter fun e => !object e.2).map Prod.fst
  keys : ∀ e ∈ c.declared.entries, e.2.name = e.1
  sound : ∀ e ∈ c.declared.entries, e.2.Sound (c.Known written)
  types : ∀ e ∈ c.aliases.entries, e.2.Within (c.Known written)

theorem Filled.withNames (hnodup : reserved.Nodup) :
    Filled written reserved object [] (Catalog.withNames reserved) where
  tidy := ⟨List.suffix_rfl, hnodup, .refl _, nofun, nofun⟩
  declared := rfl
  aliases := rfl
  keys := nofun
  sound := nofun
  types := nofun

theorem Filled.extends (h : Filled written reserved object done c) (hc : c.Extends c')
    (htidy : c'.Tidy written reserved []) : Filled written reserved object done c' where
  tidy := htidy
  declared := hc.declared ▸ h.declared
  aliases := hc.aliases ▸ h.aliases
  keys := hc.declared ▸ h.keys
  sound e he := (h.sound e (hc.declared ▸ he)).mono fun _ => hc.known
  types e he := (h.types e (hc.aliases ▸ he)).mono fun _ => hc.known

theorem not_mem_filter (hnew : name ∉ done.map Prod.fst) (p : String × σ → Bool) :
    name ∉ (done.filter p).map Prod.fst :=
  fun hmem => hnew ((List.filter_sublist.map Prod.fst).subset hmem)

theorem Filled.declare (h : Filled written reserved object done c)
    (hnew : d.name ∉ done.map Prod.fst) (hobject : object s = true)
    (hsound : d.Sound (c.Known written)) :
    Filled written reserved object (done ++ [(d.name, s)]) (c.declare d) := by
  have hentries : (c.declare d).declared.entries = c.declared.entries ++ [(d.name, d)] :=
    OrderedMap.entries_insert (h.declared ▸ not_mem_filter hnew _)
  refine ⟨⟨h.tidy.suffix, h.tidy.nodup, h.tidy.taken, h.tidy.keys, h.tidy.sound⟩, ?_, ?_, ?_, ?_,
    h.types⟩
  · rw [OrderedMap.names, hentries, List.map_append, ← OrderedMap.names, h.declared]
    simp [hobject]
  · simpa [hobject, Catalog.declare] using h.aliases
  · rw [hentries]
    exact List.forall_mem_append.2 ⟨h.keys, List.forall_mem_singleton.2 rfl⟩
  · rw [hentries]
    exact List.forall_mem_append.2 ⟨h.sound, List.forall_mem_singleton.2 hsound⟩

theorem Filled.addAlias (h : Filled written reserved object done c) (hnew : name ∉ done.map Prod.fst)
    (hobject : object s = false) (htype : type.Within (c.Known written)) :
    Filled written reserved object (done ++ [(name, s)]) (c.addAlias name type) := by
  have hentries : (c.addAlias name type).aliases.entries = c.aliases.entries ++ [(name, type)] :=
    OrderedMap.entries_insert (h.aliases ▸ not_mem_filter hnew _)
  refine ⟨⟨h.tidy.suffix, h.tidy.nodup, h.tidy.taken, h.tidy.keys, h.tidy.sound⟩, ?_, ?_, h.keys,
    h.sound, ?_⟩
  · simpa [hobject, Catalog.addAlias] using h.declared
  · rw [OrderedMap.names, hentries, List.map_append, ← OrderedMap.names, h.aliases]
    simp [hobject]
  · rw [hentries]
    exact List.forall_mem_append.2 ⟨h.types, List.forall_mem_singleton.2 htype⟩

/-- Schemas of different names are converted one after the other. -/
theorem filled_of_forM {schemas : OrderedMap σ} {convert : String → σ → Conversion Unit}
    (h : ∀ e ∈ schemas.entries, ∀ done c, e.1 ∉ done.map Prod.fst →
      Filled written schemas.names object done c →
      wp (convert e.1 e.2) c (fun _ => Filled written schemas.names object (done ++ [e]))
        fun _ _ => True) :
    wp (schemas.entries.forM fun e => convert e.1 e.2) (Catalog.withNames schemas.names)
      (fun _ => Filled written schemas.names object schemas.entries) fun _ _ => True := by
  refine wp_forM_of_append (.withNames schemas.distinct) fun done e rest c hentries hc => ?_
  have hdistinct := schemas.distinct
  rw [hentries, List.map_append, List.map_cons] at hdistinct
  have hnew : e.1 ∉ done.map Prod.fst := fun hmem =>
    (List.nodup_append.1 hdistinct).2.2 _ hmem _ List.mem_cons_self rfl
  exact h e (hentries ▸ List.mem_append_right _ List.mem_cons_self) done c hnew hc

/-- No hoisted definition has the name of a schema of the document. -/
theorem Tidy.not_mem_reserved {pending : List String} (h : c.Tidy written reserved pending)
    (hname : name ∈ c.hoisted.names) : name ∉ reserved := by
  have hnodup := h.taken.nodup_iff.1 h.nodup
  intro hmem
  exact (List.nodup_append.1 hnodup).2.2 name (List.mem_append_right _ hname) name hmem rfl

/-- All definitions are kept as they are, the declared ones first. -/
theorem Filled.definitions {schemas : OrderedMap σ}
    (h : Filled written schemas.names object schemas.entries c) :
    c.definitions.entries = c.declared.entries ++ c.hoisted.entries := by
  refine OrderedMap.entries_insertAll (List.nodup_append.2 ⟨c.declared.distinct, c.hoisted.distinct, ?_⟩)
  rintro name hdeclared _ hhoisted rfl
  have hmem : name ∈ c.declared.names := hdeclared
  rw [h.declared] at hmem
  exact h.tidy.not_mem_reserved hhoisted ((List.filter_sublist.map Prod.fst).subset hmem)

end Catalog

end TypedClient.Schema
