import TypedClient.Model.Resolution
import TypedClient.Proofs.Resolution.Denotation
import TypedClient.Proofs.Run

/-!
# The resolution of types

Resolution finds what a type denotes. An alias is kept with the type it stands for, whatever was
visited on the way to it, so that it can be looked up again anywhere. A name that is visited leads
to the type that is looked at; so visiting it again is a cycle, and no answer was missed.
-/

open Relation

namespace TypedClient

open Schema (TypeRef)

namespace Resolver

variable {d : Schema.Document} {r r' r'' : Resolver} {name : String} {v : ValueType}

/-- Each alias is known with the type it stands for. -/
def AliasesOf (d : Schema.Document) (r : Resolver) : Prop :=
  ∀ name v, r.aliases.get? name = some v → d.DenotesAlias name v

/-- Only aliases are added from `r` to `r'`. -/
structure AddsAliases (r r' : Resolver) : Prop where
  aliases : ∀ name ∈ r.aliases.names, name ∈ r'.aliases.names
  properties : r'.properties = r.properties
  models : r'.models = r.models

theorem AddsAliases.refl (r : Resolver) : r.AddsAliases r := ⟨fun _ h => h, rfl, rfl⟩

theorem AddsAliases.trans (h : r.AddsAliases r') (h' : r'.AddsAliases r'') : r.AddsAliases r'' :=
  ⟨fun name hname => h'.aliases name (h.aliases name hname), h'.properties.trans h.properties,
    h'.models.trans h.models⟩

theorem AliasesOf.insert (h : r.AliasesOf d) (hv : d.DenotesAlias name v) :
    { r with aliases := r.aliases.insert name v }.AliasesOf d := by
  intro key w hkey
  rw [OrderedMap.get?_insert] at hkey
  split at hkey
  · rename_i heq
    cases hkey
    exact heq ▸ hv
  · exact h key w hkey

theorem addsAliases_insert (r : Resolver) (name : String) (v : ValueType) :
    r.AddsAliases { r with aliases := r.aliases.insert name v } :=
  ⟨fun _ h => OrderedMap.mem_names_insert.2 (.inr h), rfl, rfl⟩

end Resolver

namespace Resolution

variable {d : Schema.Document} {visited : List String} {name : String} {t : TypeRef}

/-- What the resolution of a type does when each visited alias leads to it. -/
def TypeSpec (d : Schema.Document) (visited : List String) (t : TypeRef) : Prop :=
  ∀ r : Resolver, r.AliasesOf d →
    (∀ name ∈ visited, name ∉ d.definitions.names → TransGen d.Follows (.reference name) t) →
    wp (typeWithin d visited t) r
      (fun v r' => d.Denotes t v ∧ r'.AliasesOf d ∧ r.AddsAliases r')
      (fun e _ => d.Explains t e)

/-- What the resolution of an alias does. An alias whose name is a definition as well is looked at
by its own only. -/
def AliasSpec (d : Schema.Document) (visited : List String) (name : String) : Prop :=
  ∀ r : Resolver, r.AliasesOf d →
    (∀ n ∈ visited, n ∉ d.definitions.names →
      TransGen d.Follows (.reference n) (.reference name)) →
    (name ∈ d.definitions.names → visited = [] ∧ name ∈ d.aliases.names) →
    wp (aliasWithin d visited name) r
      (fun v r' => d.DenotesAlias name v ∧ r'.AliasesOf d ∧ r.AddsAliases r' ∧
        name ∈ r'.aliases.names)
      (fun e _ =>
        name ∉ d.definitions.names ∧ d.Explains (.reference name) e ∧
          (name ∈ d.aliases.names → visited ≠ []) ∨
        ∃ t, d.aliases.get? name = some t ∧ d.Explains t e)

theorem reference_spec (hname : name ∉ d.definitions.names) (h : AliasSpec d visited name) :
    TypeSpec d visited (.reference name) := by
  intro r hr hvisited
  rw [typeWithin, if_neg (by simpa using hname)]
  refine (h r hr hvisited fun hdef => absurd hdef hname).mono ?_ ?_
  · rintro v r' ⟨⟨t, halias, hv⟩, hr', hadds, -⟩
    exact ⟨.aliased hname halias hv, hr', hadds⟩
  · rintro e - (⟨-, he, -⟩ | ⟨t, halias, he⟩)
    · exact he
    · exact he.of_follows (.aliased hname halias)

theorem alias_spec (h : ∀ t, d.aliases.get? name = some t → name ∉ visited →
    TypeSpec d (name :: visited) t) : AliasSpec d visited name := by
  intro r hr hvisited hname
  rw [aliasWithin, wp_bind, wp_get]
  cases hmemo : r.aliases.get? name with
  | some v => exact ⟨hr name v hmemo, hr, .refl r, OrderedMap.mem_names_of_get? hmemo⟩
  | none =>
    dsimp only
    split
    · rename_i hnone
      have hdef : name ∉ d.definitions.names := fun hdef =>
        OrderedMap.get?_eq_none_iff.1 hnone (hname hdef).2
      have halias := OrderedMap.get?_eq_none_iff.1 hnone
      refine .inl ⟨hdef, ⟨.refl, ?_⟩, fun hmem => absurd hmem halias⟩
      rw [Schema.Document.knows_iff]
      exact not_or.2 ⟨hdef, halias⟩
    · rename_i t halias
      split
      · rename_i hcycle
        have hdef : name ∉ d.definitions.names := fun hdef =>
          List.not_mem_nil ((hname hdef).1 ▸ hcycle)
        exact .inl ⟨hdef, ⟨.refl, hvisited name hcycle hdef⟩, fun _ => List.ne_nil_of_mem hcycle⟩
      · rename_i hnew
        -- whatever leads to the alias leads on to its type, and so does the alias itself
        have hvisited' : ∀ n ∈ name :: visited, n ∉ d.definitions.names →
            TransGen d.Follows (.reference n) t := by
          intro n hn hndef
          rcases List.mem_cons.1 hn with rfl | hn
          · exact .single (.aliased hndef halias)
          · have hdef : name ∉ d.definitions.names := fun hdef =>
              List.not_mem_nil ((hname hdef).1 ▸ hn)
            exact (hvisited n hn hndef).tail (.aliased hdef halias)
        rw [wp_bind]
        refine (h t halias hnew r hr hvisited').mono ?_ fun e _ he => .inr ⟨t, halias, he⟩
        rintro v r' ⟨hv, hr', hadds⟩
        exact ⟨⟨t, halias, hv⟩, hr'.insert ⟨t, halias, hv⟩,
          hadds.trans (r'.addsAliases_insert name v), OrderedMap.mem_names_insert.2 (.inl rfl)⟩

theorem specs (d : Schema.Document) :
    (∀ visited t, TypeSpec d visited t) ∧ ∀ visited name, AliasSpec d visited name := by
  -- along the recursion of the resolution; `reference` and `known` are where aliases are visited
  refine typeWithin.mutual_induct d (TypeSpec d) (AliasSpec d) ?primitive ?unknown ?array ?map
    ?any ?model ?reference ?known
  case primitive =>
    intro visited name format values kind hkind r hr _
    rw [typeWithin, hkind]
    exact ⟨.primitive hkind, hr, .refl r⟩
  case unknown =>
    intro visited name format values hkind r hr _
    rw [typeWithin, hkind]
    exact ⟨format, values, .refl, hkind⟩
  case array =>
    intro visited items ih r hr hvisited
    rw [typeWithin, wp_map]
    refine (ih r hr fun n hn hdef => (hvisited n hn hdef).tail (.items items)).mono ?_ ?_
    · rintro v r' ⟨hv, hr', hadds⟩
      exact ⟨.array hv, hr', hadds⟩
    · exact fun e _ he => he.of_follows (.items items)
  case map =>
    intro visited values ih r hr hvisited
    rw [typeWithin, wp_map]
    refine (ih r hr fun n hn hdef => (hvisited n hn hdef).tail (.values values)).mono ?_ ?_
    · rintro v r' ⟨hv, hr', hadds⟩
      exact ⟨.map hv, hr', hadds⟩
    · exact fun e _ he => he.of_follows (.values values)
  case any =>
    intro visited r hr _
    rw [typeWithin]
    exact ⟨.any, hr, .refl r⟩
  case model =>
    intro visited name hname r hr _
    rw [typeWithin, if_pos hname]
    exact ⟨.model (OrderedMap.contains_iff.1 hname), hr, .refl r⟩
  case reference =>
    intro visited name hname ih
    exact reference_spec (by simpa using hname) ih
  case known =>
    intro visited name ih
    exact alias_spec ih

end Resolution

end TypedClient
