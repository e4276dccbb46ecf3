import Mathlib.Logic.Relation
import Mathlib.Tactic.Choose
import TypedClient.Model.Resolution
import TypedClient.Proofs.OrderedMap
import TypedClient.Proofs.Properties
import TypedClient.Proofs.Run

/-!
# The resolution of inheritance

The properties of a definition are those of its bases and its own, where a later declaration of a
name replaces an earlier one. They are found unless a base is no definition or a definition extends
itself. As for aliases, what is kept for a definition does not depend on the way to it.
-/

open Relation

namespace TypedClient

open Schema (Property Definition declareProperty)

/-! ## Flattened definitions -/

namespace Schema.Document

variable {d : Document} {name base : String} {definition : Definition} {ps qs : List Property}

/-- The definition `name` extends `base`. -/
def Extends (d : Document) (name base : String) : Prop :=
  ∃ definition, d.definitions.get? name = some definition ∧ base ∈ definition.bases

/-- The properties of bases one after the other, added to those declared before. -/
def gathered (inherited : String → List Property) (bases : List String)
    (declared : List Property) : List Property :=
  bases.foldl (fun declared base => (inherited base).foldl declareProperty declared) declared

/-- `ps` are the properties of the definition `name` and of all that it extends. -/
inductive Flattens (d : Document) : String → List Property → Prop where
  | definition {name : String} {definition : Definition} (inherited : String → List Property)
      (hget : d.definitions.get? name = some definition)
      (hbases : ∀ base ∈ definition.bases, Flattens d base (inherited base)) :
      Flattens d name
        (definition.properties.foldl declareProperty (gathered inherited definition.bases []))

theorem gathered_congr {f g : String → List Property} {bases : List String}
    (h : ∀ base ∈ bases, f base = g base) (declared : List Property) :
    gathered f bases declared = gathered g bases declared := by
  induction bases generalizing declared with
  | nil => rfl
  | cons base bases ih =>
    simp only [gathered, List.foldl_cons, h base List.mem_cons_self]
    exact ih (fun b hb => h b (List.mem_cons_of_mem _ hb)) _

theorem mem_names_gathered {inherited : String → List Property} {bases : List String}
    {declared : List Property} :
    name ∈ (gathered inherited bases declared).map (·.name) ↔
      (∃ base ∈ bases, name ∈ (inherited base).map (·.name)) ∨
        name ∈ declared.map (·.name) := by
  induction bases generalizing declared with
  | nil => simp [gathered]
  | cons base bases ih =>
    have hcons : gathered inherited (base :: bases) declared =
      gathered inherited bases ((inherited base).foldl declareProperty declared) := rfl
    rw [hcons, ih, mem_names_foldl_declareProperty]
    simp only [List.mem_cons, exists_eq_or_imp, or_assoc, or_left_comm]

theorem mem_of_mem_gathered {inherited : String → List Property} {bases : List String}
    {declared : List Property} {p : Property} (h : p ∈ gathered inherited bases declared) :
    (∃ base ∈ bases, p ∈ inherited base) ∨ p ∈ declared := by
  induction bases generalizing declared with
  | nil => exact .inr h
  | cons base bases ih =>
    rcases ih h with ⟨b, hb, hp⟩ | h
    · exact .inl ⟨b, List.mem_cons_of_mem _ hb, hp⟩
    · exact (mem_of_mem_foldl_declareProperty h).imp (fun hp => ⟨base, List.mem_cons_self, hp⟩) id

theorem Flattens.unique (hps : d.Flattens name ps) (hqs : d.Flattens name qs) : ps = qs := by
  induction hps generalizing qs with
  | definition inherited hget _ ih =>
    cases hqs with
    | definition inherited' hget' hbases' =>
      cases hget.symm.trans hget'
      rw [gathered_congr fun base hbase => ih base hbase (hbases' base hbase)]

theorem Flattens.extends (h : d.Flattens name ps) (hbase : d.Extends name base) :
    ∃ qs, d.Flattens base qs := by
  cases h with
  | definition inherited hget hbases =>
    obtain ⟨definition, hget', hmem⟩ := hbase
    cases hget.symm.trans hget'
    exact ⟨_, hbases base hmem⟩

theorem Flattens.not_cycle (h : d.Flattens name ps) : ¬ TransGen d.Extends name name := by
  induction h with
  | definition inherited hget _ ih =>
    intro hcycle
    -- turned by one step, the cycle is one of the base
    obtain ⟨base, ⟨definition, hget', hmem⟩, hway⟩ := TransGen.head'_iff.1 hcycle
    cases hget.symm.trans hget'
    exact ih base hmem (TransGen.tail'_iff.2 ⟨_, hway, ⟨_, hget, hmem⟩⟩)

/-- Each of the properties is declared by some definition. -/
theorem Flattens.declared (h : d.Flattens name ps) {p : Property} (hp : p ∈ ps) :
    ∃ owner definition, d.definitions.get? owner = some definition ∧ p ∈ definition.properties := by
  induction h with
  | @definition name definition inherited hget _ ih =>
    rcases mem_of_mem_foldl_declareProperty hp with hp | hp
    · exact ⟨name, definition, hget, hp⟩
    · rcases mem_of_mem_gathered hp with ⟨base, hbase, hp⟩ | hp
      · exact ih base hbase hp
      · exact absurd hp List.not_mem_nil

/-- Properties of the definition itself are among them, if its names are distinct. -/
theorem Flattens.mem_own (h : d.Flattens name ps) (hget : d.definitions.get? name = some definition)
    (hdistinct : (definition.properties.map (·.name)).Nodup) {p : Property}
    (hp : p ∈ definition.properties) : p ∈ ps := by
  cases h with
  | definition inherited hget' _ =>
    cases hget.symm.trans hget'
    exact mem_foldl_declareProperty hdistinct hp

/-- The names of the properties are the definition's own and those of its bases. -/
theorem Flattens.mem_names (h : d.Flattens name ps)
    (hget : d.definitions.get? name = some definition) {key : String} :
    key ∈ ps.map (·.name) ↔ key ∈ definition.properties.map (·.name) ∨
      ∃ base ∈ definition.bases, ∃ qs, d.Flattens base qs ∧ key ∈ qs.map (·.name) := by
  cases h with
  | definition inherited hget' hbases =>
    cases hget.symm.trans hget'
    rw [mem_names_foldl_declareProperty, mem_names_gathered]
    refine or_congr_right ⟨?_, ?_⟩
    · rintro (⟨base, hbase, hkey⟩ | hkey)
      · exact ⟨base, hbase, _, hbases base hbase, hkey⟩
      · exact absurd hkey List.not_mem_nil
    · rintro ⟨base, hbase, qs, hqs, hkey⟩
      exact .inl ⟨base, hbase, (hbases base hbase).unique hqs ▸ hkey⟩

end Schema.Document

/-! ## Resolution -/

namespace Schema.Document

/-- A failure that comes from what a definition extends. -/
inductive BaseFailure (d : Document) : Failure → Prop where
  | base {name base : String} (hbase : d.Extends name base) (hname : base ∉ d.definitions.names) :
      BaseFailure d (Resolution.baseFailure d name base)
  | cycle {name : String} (hcycle : TransGen d.Extends name name) :
      BaseFailure d (.malformed (Resolution.definitionPlace name) (.inheritanceCycle name))

end Schema.Document

namespace Resolver

variable {d : Schema.Document} {r r' r'' : Resolver} {name : String} {ps : List Property}

/-- Each definition is known with all its properties. -/
def PropertiesOf (d : Schema.Document) (r : Resolver) : Prop :=
  ∀ name ps, r.properties.get? name = some ps → d.Flattens name ps

/-- Only properties are added from `r` to `r'`. -/
structure AddsProperties (r r' : Resolver) : Prop where
  aliases : r'.aliases = r.aliases
  models : r'.models = r.models

theorem AddsProperties.refl (r : Resolver) : r.AddsProperties r := ⟨rfl, rfl⟩

theorem AddsProperties.trans (h : r.AddsProperties r') (h' : r'.AddsProperties r'') :
    r.AddsProperties r'' :=
  ⟨h'.aliases.trans h.aliases, h'.models.trans h.models⟩

theorem PropertiesOf.insert (h : r.PropertiesOf d) (hps : d.Flattens name ps) :
    { r with properties := r.properties.insert name ps }.PropertiesOf d := by
  intro key qs hkey
  rw [OrderedMap.get?_insert] at hkey
  split at hkey
  · rename_i heq
    cases hkey
    exact heq ▸ hps
  · exact h key qs hkey

end Resolver

namespace Resolution

open Schema.Document (gathered)

variable {d : Schema.Document} {visited bases : List String} {name base : String}
  {declared : List Property}

/-- What the resolution of a definition does when each visited definition extends it. -/
def PropertiesSpec (d : Schema.Document) (visited : List String) (name : String) : Prop :=
  ∀ r : Resolver, r.PropertiesOf d → name ∈ d.definitions.names →
    (∀ n ∈ visited, TransGen d.Extends n name) →
    wp (propertiesWithin d visited name) r
      (fun ps r' => d.Flattens name ps ∧ r'.PropertiesOf d ∧ r.AddsProperties r')
      (fun e _ => d.BaseFailure e)

/-- What going through some of the bases of `name` does. -/
def InheritedSpec (d : Schema.Document) (visited : List String) (name : String)
    (bases : List String) (declared : List Property) : Prop :=
  ∀ r : Resolver, r.PropertiesOf d → (∀ base ∈ bases, d.Extends name base) →
    (∀ n ∈ visited, ReflTransGen d.Extends n name) →
    wp (inheritedFrom d visited name bases declared) r
      (fun ps r' => (∀ base ∈ bases, ∃ qs, d.Flattens base qs) ∧
        (∀ inherited : String → List Property,
          (∀ base ∈ bases, d.Flattens base (inherited base)) →
            ps = gathered inherited bases declared) ∧
        r'.PropertiesOf d ∧ r.AddsProperties r')
      (fun e _ => d.BaseFailure e)

theorem definition_spec (h : ∀ definition, d.definitions.get? name = some definition →
    name ∉ visited → InheritedSpec d (name :: visited) name definition.bases []) :
    PropertiesSpec d visited name := by
  intro r hr hname hvisited
  rw [propertiesWithin, wp_bind, wp_get]
  cases hmemo : r.properties.get? name with
  | some ps => exact ⟨hr name ps hmemo, hr, .refl r⟩
  | none =>
    dsimp only
    split
    · rename_i hnone
      exact absurd hname (OrderedMap.get?_eq_none_iff.1 hnone)
    · rename_i definition hget
      split
      · rename_i hcycle
        exact .cycle (hvisited name hcycle)
      · rename_i hnew
        have hvisited' : ∀ n ∈ name :: visited, ReflTransGen d.Extends n name := by
          intro n hn
          rcases List.mem_cons.1 hn with rfl | hn
          · exact .refl
          · exact (hvisited n hn).to_reflTransGen
        rw [wp_bind]
        refine (h definition hget hnew r hr (fun base hbase => ⟨definition, hget, hbase⟩)
          hvisited').mono ?_ fun _ _ he => he
        rintro inheritedProperties r' ⟨hbases, hgathered, hr', hadds⟩
        choose! inherited hinherited using hbases
        -- the bases are flattened by now, and what was gathered is what any flattenings of them give
        have hflat : d.Flattens name
            (definition.properties.foldl declareProperty inheritedProperties) := by
          rw [hgathered inherited hinherited]
          exact .definition inherited hget hinherited
        exact ⟨hflat, hr'.insert hflat, hadds.trans ⟨rfl, rfl⟩⟩

theorem base_spec (hbase : base ∈ d.definitions.names) (h : PropertiesSpec d visited base)
    (hrest : ∀ inherited : List Property, InheritedSpec d visited name bases
      (inherited.foldl declareProperty declared)) :
    InheritedSpec d visited name (base :: bases) declared := by
  intro r hr hextends hvisited
  have hname := hextends base List.mem_cons_self
  rw [inheritedFrom, if_pos (OrderedMap.contains_iff.2 hbase), wp_bind]
  refine (h r hr hbase fun n hn => TransGen.tail' (hvisited n hn) hname).mono ?_ fun _ _ he => he
  rintro qs r' ⟨hqs, hr', hadds⟩
  refine (hrest qs r' hr' (fun b hb => hextends b (List.mem_cons_of_mem _ hb)) hvisited).mono ?_
    fun _ _ he => he
  rintro ps r'' ⟨hbases, hgathered, hr'', hadds'⟩
  refine ⟨fun b hb => ?_, fun inherited hinherited => ?_, hr'', hadds.trans hadds'⟩
  · rcases List.mem_cons.1 hb with rfl | hb
    · exact ⟨qs, hqs⟩
    · exact hbases b hb
  · rw [hgathered inherited fun b hb => hinherited b (List.mem_cons_of_mem _ hb),
      hqs.unique (hinherited base List.mem_cons_self)]
    rfl

theorem propertiesWithin_spec (d : Schema.Document) (visited : List String) (name : String) :
    PropertiesSpec d visited name := by
  -- along the recursion of the resolution
  refine (propertiesWithin.mutual_induct d (PropertiesSpec d) (InheritedSpec d) ?definition ?done
    ?base ?missing).1 visited name
  case definition =>
    intro visited name ih
    exact definition_spec ih
  case done =>
    intro visited name declared r hr _ _
    rw [inheritedFrom]
    exact ⟨fun _ h => absurd h List.not_mem_nil, fun _ _ => rfl, hr, .refl r⟩
  case base =>
    intro visited name declared base bases hbase ih ihrest
    exact base_spec (OrderedMap.contains_iff.1 hbase) ih ihrest
  case missing =>
    intro visited name declared base bases hbase r _ hextends _
    rw [inheritedFrom, if_neg hbase]
    exact .base (hextends base List.mem_cons_self) (by simpa using hbase)

end Resolution

end TypedClient
