import TypedClient.Proofs.Resolution.Plain
import TypedClient.Proofs.Resolution.Reordering

/-!
# Types by the table

While a document is resolved a type is found by following it: aliases are looked at when they are met,
what they stand for is kept, and one that leads back to itself is a fault. The finished table looks
each name up once. For a document with a table the two give the same for every type, whether the
document has it or not and whatever has been found before.
-/

namespace TypedClient

open Schema (TypeRef Property)

variable {d : Schema.Document} {t : TypeTable} {r : Resolver} {type : TypeRef} {v : ValueType}
  {name : String}

/-! ## The table -/

theorem TypeTable.typeOf_ne_aliasCycle (t : TypeTable) (type : TypeRef) (name : String) :
    t.typeOf type ≠ .error (.aliasCycle name) := by
  induction type with
  | primitive kind format values =>
    simp only [typeOf]
    split <;> simp
  | array items ih => simpa only [typeOf, ne_eq, map_eq_error_iff] using ih
  | map values ih => simpa only [typeOf, ne_eq, map_eq_error_iff] using ih
  | any => simp [typeOf]
  | reference key =>
    simp only [typeOf, referenceType]
    split
    · simp
    · split <;> simp

namespace Schema.Document

theorem Tabulates.typeOf_of_denotes (h : d.Tabulates t) (hv : d.Denotes type v) :
    t.typeOf type = .ok v := by
  induction hv with
  | primitive hkind => simp [TypeTable.typeOf, hkind]
  | array _ ih => simp [TypeTable.typeOf, ih, Except.map]
  | map _ ih => simp [TypeTable.typeOf, ih, Except.map]
  | any => rfl
  | model hname => simp [TypeTable.typeOf, TypeTable.referenceType, h.names, hname]
  | aliased hname halias htype _ =>
    have hknown := h.get?_aliases_eq_some_iff.2 ⟨_, halias, htype⟩
    simp [TypeTable.typeOf, TypeTable.referenceType, h.names, hname, hknown]

theorem Tabulates.typeOf_eq_ok_iff (h : d.Tabulates t) :
    t.typeOf type = .ok v ↔ d.Denotes type v :=
  ⟨h.denotes_of_typeOf, h.typeOf_of_denotes⟩

/-- The table maps types to what they are in the document. No alias is left in it, the name of a
definition is a model, and a name that is nothing is reported as it stands. -/
structure Maps (d : Document) (t : TypeTable) : Prop where
  denotes : ∀ type v, t.typeOf type = .ok v ↔ d.Denotes type v
  mentions : ∀ type v, t.typeOf type = .ok v →
    ∀ name, v.Mentions name → name ∈ d.definitions.names
  definition : ∀ name ∈ d.definitions.names, t.typeOf (.reference name) = .ok (.model name)
  aliased : ∀ name type, name ∉ d.definitions.names → d.aliases.get? name = some type →
    ∃ v, t.typeOf type = .ok v ∧ t.typeOf (.reference name) = .ok v
  unresolved : ∀ type name, t.typeOf type = .error (.unresolved name) ↔
    type.innermost = .reference name ∧ ¬ d.knows name
  acyclic : ∀ type name, t.typeOf type ≠ .error (.aliasCycle name)

theorem Tabulates.maps (h : d.Tabulates t) (hd : d.Resolvable) : d.Maps t where
  denotes _ _ := h.typeOf_eq_ok_iff
  mentions _ _ hv _ := (h.denotes_of_typeOf hv).mentions
  definition _ hname := h.typeOf_of_denotes (.model hname)
  aliased name type hname halias := by
    obtain ⟨v, hv⟩ := hd.aliases name type halias
    exact ⟨v, h.typeOf_of_denotes hv, h.typeOf_of_denotes (.aliased hname halias hv)⟩
  unresolved type name := by
    rw [TypeTable.typeOf_eq_unresolved_iff, h.knows_iff, not_or]
  acyclic := t.typeOf_ne_aliasCycle

end Schema.Document

/-! ## The resolution -/

namespace Resolution

variable {ε α β : Type} {x : Resolving ε α} {answer : Except ε α}

/-- Where all that is known is what the document says, the run of `x` ends in the answer, and what is
known then is what the document says, too. -/
def Answers (d : Schema.Document) (x : Resolving ε α) (answer : Except ε α) : Prop :=
  ∀ r : Resolver, r.Sound d →
    wp x r (fun a r' => answer = .ok a ∧ r'.Sound d) (fun e r' => answer = .error e ∧ r'.Sound d)

theorem Answers.fst_run (h : Answers d x answer) (hr : r.Sound d) : (x.run r).1 = answer := by
  have hwp := h r hr
  unfold wp at hwp
  split at hwp <;> simp_all

theorem Answers.sound (h : Answers d x answer) (hr : r.Sound d) : (x.run r).2.Sound d := by
  have hwp := h r hr
  unfold wp at hwp
  split at hwp <;> simp_all

theorem Answers.map (h : Answers d x answer) (f : α → β) :
    Answers d (f <$> x) (answer.map f) := by
  intro r hr
  refine wp_map.2 ((h r hr).mono ?_ ?_)
  · rintro a r' ⟨rfl, hr'⟩
    exact ⟨rfl, hr'⟩
  · rintro e r' ⟨rfl, hr'⟩
    exact ⟨rfl, hr'⟩

/-- An alias is looked at by what is kept for it, or along its type; the table has it either way. -/
theorem answers_aliasWithin (h : d.Tabulates t) (name : String) :
    Answers d (aliasWithin d [] name)
      ((t.aliases.get? name).elim (.error (.unresolved name)) .ok) := by
  intro r hr
  cases halias : d.aliases.get? name with
  | none =>
    have hunknown : name ∉ d.aliases.names := OrderedMap.get?_eq_none_iff.1 halias
    have htable : t.aliases.get? name = none :=
      OrderedMap.get?_eq_none_iff.2 (mt h.mem_aliases.1 hunknown)
    have hmemo : r.aliases.get? name = none := by
      rw [Option.eq_none_iff_forall_ne_some]
      intro v hv
      obtain ⟨type, htype, -⟩ := hr.aliases name v hv
      exact hunknown (OrderedMap.mem_names_of_get? htype)
    simp only [aliasWithin_eq, wp_bind, wp_get, hmemo, halias, htable]
    exact ⟨rfl, hr⟩
  | some type =>
    have hname := OrderedMap.mem_names_of_get? halias
    refine ((specs d).2 [] name r hr.aliases (fun _ h => absurd h List.not_mem_nil)
      fun _ => ⟨rfl, hname⟩).mono ?_ ?_
    · rintro v r' ⟨hv, hr', hadds, -⟩
      rw [h.get?_aliases_eq_some_iff.2 hv]
      exact ⟨rfl, hr.of_addsAliases hadds hr'⟩
    -- an alias of the table has a type, which has no fault then
    · rintro e r' (⟨-, -, hvisited⟩ | ⟨type', halias', hfault⟩)
      · exact absurd rfl (hvisited hname)
      · obtain ⟨v, hv⟩ := OrderedMap.mem_names_iff.1 (h.known name hname)
        obtain ⟨_, halias'', hdenotes⟩ := h.aliases name v hv
        cases halias'.symm.trans halias''
        exact absurd hdenotes hfault.not_denotes

theorem answers_typeWithin (h : d.Tabulates t) (type : TypeRef) :
    Answers d (typeWithin d [] type) (t.typeOf type) := by
  induction type with
  | primitive kind format values =>
    intro r hr
    rw [typeWithin, TypeTable.typeOf]
    cases Primitive.ofSchema? kind format <;> exact ⟨rfl, hr⟩
  | array items ih =>
    rw [typeWithin]
    exact ih.map ValueType.array
  | map values ih =>
    rw [typeWithin]
    exact ih.map ValueType.map
  | any =>
    intro r hr
    rw [typeWithin]
    exact ⟨rfl, hr⟩
  | reference name =>
    have hcontains : t.models.contains name = d.definitions.contains name := by
      rw [OrderedMap.contains, OrderedMap.contains, h.names]
    rw [typeWithin, TypeTable.typeOf, TypeTable.referenceType, hcontains]
    split
    · exact fun r hr => ⟨rfl, hr⟩
    · have halias := answers_aliasWithin h name
      cases hget : t.aliases.get? name <;> rwa [hget] at halias

/-- What is found for a definition has nothing to do with types, and leaves what is known of them. -/
theorem exists_answers_propertiesWithin (h : d.Resolvable) (name : String) :
    ∃ answer, Answers d (propertiesWithin d [] name) answer := by
  by_cases hname : name ∈ d.definitions.names
  · obtain ⟨ps, hps, -⟩ := h.definitions name hname
    refine ⟨.ok ps, fun r hr => ?_⟩
    refine (propertiesWithin_spec d [] name r hr.properties hname
      fun _ h => absurd h List.not_mem_nil).mono ?_ ?_
    · rintro qs r' ⟨hqs, hr', hadds⟩
      exact ⟨congrArg _ (hps.unique hqs), hr.of_addsProperties hadds hr'⟩
    · exact fun e _ he => absurd (.base he) h.not_refuses
  · refine ⟨.error (.unresolved name (definitionPlace name)), fun r hr => ?_⟩
    have hget : d.definitions.get? name = none := OrderedMap.get?_eq_none_iff.2 hname
    have hmemo : r.properties.get? name = none := by
      rw [Option.eq_none_iff_forall_ne_some]
      exact fun ps hps => hname (hr.properties name ps hps).mem_definitions
    simp only [propertiesWithin_eq, wp_bind, wp_get, hmemo, hget]
    exact ⟨rfl, hr⟩

theorem sound_outcome (h : resolve d = .ok t) : (outcome d).2.Sound d := by
  have hspec := resolveAll_spec d
  rw [resolve] at h
  rcases hrun : outcome d with ⟨_ | _, r⟩
  · rw [hrun] at h
    cases h
  · exact (hspec.of_ok hrun).sound

end Resolution

/-- What may be known of a document at some time: nothing, all that its resolution has found, and from
there what has been found for any types, aliases and definitions, one after the other, also when
one of them came to a fault. -/
inductive Resolver.Reached (d : Schema.Document) : Resolver → Prop where
  | start : Reached d {}
  | resolved : Reached d (Resolution.outcome d).2
  | typed {r : Resolver} (type : TypeRef) (h : Reached d r) :
      Reached d ((Resolution.typeWithin d [] type).run r).2
  | aliased {r : Resolver} (name : String) (h : Reached d r) :
      Reached d ((Resolution.aliasWithin d [] name).run r).2
  | defined {r : Resolver} (name : String) (h : Reached d r) :
      Reached d ((Resolution.propertiesWithin d [] name).run r).2

theorem Resolver.Reached.sound (hr : Reached d r) (h : resolve d = .ok t) : r.Sound d := by
  obtain ⟨htable, hops⟩ := tabulates_of_resolve h
  induction hr with
  | start => exact ⟨nofun, nofun⟩
  | resolved => exact Resolution.sound_outcome h
  | typed type _ ih => exact (Resolution.answers_typeWithin htable type).sound ih
  | aliased name _ ih => exact (Resolution.answers_aliasWithin htable name).sound ih
  | defined name _ ih =>
    obtain ⟨_, hanswers⟩ :=
      Resolution.exists_answers_propertiesWithin (htable.resolvable hops) name
    exact hanswers.sound ih

namespace Schema.Document

/-- The table maps every type to what its resolution finds, whenever that is asked for. -/
theorem types_mapped (h : resolve d = .ok t) : d.Maps t ∧
    ∀ r, Resolver.Reached d r → ∀ type,
      ((Resolution.typeWithin d [] type).run r).1 = t.typeOf type := by
  obtain ⟨htable, hops⟩ := tabulates_of_resolve h
  refine ⟨htable.maps (htable.resolvable hops), ?_⟩
  intro r hr type
  exact (Resolution.answers_typeWithin htable type).fst_run (hr.sound h)

/-- A leaf is nothing that the document of the linked nodes knows. After it was looked for the links
are still found, the same as in the table. -/
theorem linkedNodes_mapped : ∃ t, resolve linkedNodes = .ok t ∧
    t.typeOf (.map (.reference "Links")) = .ok (.map (.array (.model "Node"))) ∧
    t.typeOf (.array (.reference "Leaf")) = .error (.unresolved "Leaf") ∧
    ∀ r, r = ((Resolution.typeWithin linkedNodes [] (.array (.reference "Leaf"))).run {}).2 →
      ((Resolution.typeWithin linkedNodes [] (.map (.reference "Links"))).run r).1 =
        .ok (.map (.array (.model "Node"))) := by
  have hresolve : (resolve linkedNodes).map (·.models.names) = .ok ["Item", "Node"] := by
    decide +kernel
  obtain ⟨t, ht, -⟩ := map_eq_ok_iff.1 hresolve
  obtain ⟨hmaps, hruns⟩ := types_mapped ht
  have hlinks : t.typeOf (.map (.reference "Links")) = .ok (.map (.array (.model "Node"))) :=
    (hmaps.denotes _ _).2 (.map (.aliased (by decide) rfl (.array (.model (by decide)))))
  refine ⟨t, ht, hlinks, (hmaps.unresolved _ _).2 ⟨rfl, by decide⟩, ?_⟩
  rintro r rfl
  rw [hruns _ (.typed _ .start), hlinks]

end Schema.Document

end TypedClient
