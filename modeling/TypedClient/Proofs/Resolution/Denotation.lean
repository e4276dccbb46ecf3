import Mathlib.Logic.Relation
import TypedClient.Model.Table
import TypedClient.Proofs.OrderedMap

/-!
# What types stand for

A type is followed into arrays, maps and aliases. Where this comes to an end in something known, the
type denotes a value type; where it does not, there is a fault that says why.
-/

open Relation

namespace TypedClient

open Schema (TypeRef)

/-- What is left of a type without the arrays and maps around it. -/
def Schema.TypeRef.innermost : TypeRef → TypeRef
  | .array items => items.innermost
  | .map values  => values.innermost
  | t            => t

namespace Schema.Document

variable {d : Document} {t u : TypeRef} {v w : ValueType} {name : String}

/-- From an array or map to its contents, and from an alias to its type. A name that is a
definition as well is no alias. -/
inductive Follows (d : Document) : TypeRef → TypeRef → Prop where
  | items (items : TypeRef) : Follows d (.array items) items
  | values (values : TypeRef) : Follows d (.map values) values
  | aliased {name : String} {t : TypeRef} (hname : name ∉ d.definitions.names)
      (halias : d.aliases.get? name = some t) : Follows d (.reference name) t

/-- What following may end in. -/
inductive Ends (d : Document) : TypeRef → Prop where
  | primitive {name : String} {format : Option String} {values : List String}
      (hkind : (Primitive.ofSchema? name format).isSome) : Ends d (.primitive name format values)
  | any : Ends d .any
  | definition {name : String} (hname : name ∈ d.definitions.names) : Ends d (.reference name)

/-- Following the type comes to a good end and to no alias twice. -/
def Settles (d : Document) (t : TypeRef) : Prop :=
  (∃ last, ReflTransGen d.Follows t last ∧ d.Ends last) ∧
  ∀ name, ReflTransGen d.Follows t (.reference name) →
    ¬ TransGen d.Follows (.reference name) (.reference name)

/-- The value type that a type stands for. -/
inductive Denotes (d : Document) : TypeRef → ValueType → Prop where
  | primitive {name : String} {format : Option String} {values : List String} {kind : Primitive}
      (hkind : Primitive.ofSchema? name format = some kind) :
      Denotes d (.primitive name format values) (.primitive kind)
  | array {items : TypeRef} {v : ValueType} (hitems : Denotes d items v) :
      Denotes d (.array items) (.array v)
  | map {values : TypeRef} {v : ValueType} (hvalues : Denotes d values v) :
      Denotes d (.map values) (.map v)
  | any : Denotes d .any (.primitive .json)
  | model {name : String} (hname : name ∈ d.definitions.names) :
      Denotes d (.reference name) (.model name)
  | aliased {name : String} {t : TypeRef} {v : ValueType} (hname : name ∉ d.definitions.names)
      (halias : d.aliases.get? name = some t) (htype : Denotes d t v) :
      Denotes d (.reference name) v

/-- The value type that an alias stands for. -/
def DenotesAlias (d : Document) (name : String) (v : ValueType) : Prop :=
  ∃ t, d.aliases.get? name = some t ∧ d.Denotes t v

/-! ## Following -/

theorem Follows.unique (ht : d.Follows t u) {u' : TypeRef} (ht' : d.Follows t u') : u = u' := by
  cases ht <;> cases ht' <;> simp_all

theorem Ends.not_follows (ht : d.Ends t) : ¬ d.Follows t u := by
  intro hu
  cases ht with
  | primitive => cases hu
  | any => cases hu
  | definition hname =>
    cases hu with
    | aliased hname' => exact hname' hname

theorem Denotes.unique (hv : d.Denotes t v) (hw : d.Denotes t w) : v = w := by
  induction hv generalizing w with
  | primitive hkind =>
    cases hw with
    | primitive hkind' => simp_all
  | array _ ih =>
    cases hw with
    | array hw => rw [ih hw]
  | map _ ih =>
    cases hw with
    | map hw => rw [ih hw]
  | any =>
    cases hw
    rfl
  | model hname =>
    cases hw with
    | model => rfl
    | aliased hname' => exact absurd hname hname'
  | aliased hname halias _ ih =>
    cases hw with
    | model hname' => exact absurd hname' hname
    | aliased _ halias' hw =>
      cases halias.symm.trans halias'
      exact ih hw

/-- Types stand for the same in documents that define the same names and have the same aliases. -/
theorem Denotes.congr {d' : Document} (hv : d.Denotes t v)
    (hnames : ∀ name, name ∈ d'.definitions.names ↔ name ∈ d.definitions.names)
    (haliases : ∀ name, d'.aliases.get? name = d.aliases.get? name) : d'.Denotes t v := by
  induction hv with
  | primitive hkind => exact .primitive hkind
  | array _ ih => exact .array ih
  | map _ ih => exact .map ih
  | any => exact .any
  | model hname => exact .model ((hnames _).2 hname)
  | aliased hname halias _ ih =>
    exact .aliased (mt (hnames _).1 hname) ((haliases _).trans halias) ih

theorem Denotes.follows (hv : d.Denotes t v) (ht : d.Follows t u) : ∃ w, d.Denotes u w := by
  cases ht with
  | items =>
    cases hv with
    | array hitems => exact ⟨_, hitems⟩
  | values =>
    cases hv with
    | map hvalues => exact ⟨_, hvalues⟩
  | aliased hname halias =>
    cases hv with
    | model hname' => exact absurd hname' hname
    | aliased _ halias' htype =>
      cases halias.symm.trans halias'
      exact ⟨_, htype⟩

theorem Denotes.leads (hv : d.Denotes t v) (ht : ReflTransGen d.Follows t u) :
    ∃ w, d.Denotes u w := by
  induction ht with
  | refl => exact ⟨v, hv⟩
  | tail _ hstep ih =>
    obtain ⟨w, hw⟩ := ih
    exact hw.follows hstep

/-- What a type denotes has a finite derivation, so that following it never comes back. -/
theorem Denotes.not_cycle (hv : d.Denotes t v) : ¬ TransGen d.Follows t t := by
  -- there is one way to follow a type, so that a cycle through it goes through what it leads to
  have hback {t u : TypeRef} (htu : d.Follows t u) (hu : ¬ TransGen d.Follows u u) :
      ¬ TransGen d.Follows t t := by
    intro hcycle
    obtain ⟨u', htu', hway⟩ := TransGen.head'_iff.1 hcycle
    cases htu.unique htu'
    exact hu (TransGen.tail'_iff.2 ⟨t, hway, htu⟩)
  have hend {t : TypeRef} (ht : d.Ends t) : ¬ TransGen d.Follows t t := by
    intro hcycle
    obtain ⟨u, htu, -⟩ := TransGen.head'_iff.1 hcycle
    exact ht.not_follows htu
  induction hv with
  | primitive hkind => exact hend (.primitive (by simp [hkind]))
  | array _ ih => exact hback (.items _) ih
  | map _ ih => exact hback (.values _) ih
  | any => exact hend .any
  | model hname => exact hend (.definition hname)
  | aliased hname halias _ ih => exact hback (.aliased hname halias) ih

theorem Denotes.ends (hv : d.Denotes t v) : ∃ last, ReflTransGen d.Follows t last ∧ d.Ends last := by
  have hback {t u : TypeRef} (htu : d.Follows t u)
      (hu : ∃ last, ReflTransGen d.Follows u last ∧ d.Ends last) :
      ∃ last, ReflTransGen d.Follows t last ∧ d.Ends last := by
    obtain ⟨last, hway, hlast⟩ := hu
    exact ⟨last, .head htu hway, hlast⟩
  induction hv with
  | primitive hkind => exact ⟨_, .refl, .primitive (by simp [hkind])⟩
  | array _ ih => exact hback (.items _) ih
  | map _ ih => exact hback (.values _) ih
  | any => exact ⟨_, .refl, .any⟩
  | model hname => exact ⟨_, .refl, .definition hname⟩
  | aliased hname halias _ ih => exact hback (.aliased hname halias) ih

theorem denotes_of_ends {last : TypeRef} (hway : ReflTransGen d.Follows t last)
    (hlast : d.Ends last) : ∃ v, d.Denotes t v := by
  -- from the end of the way back to the type itself
  induction hway using ReflTransGen.head_induction_on with
  | refl =>
    cases hlast with
    | primitive hkind =>
      obtain ⟨kind, hkind⟩ := Option.isSome_iff_exists.1 hkind
      exact ⟨_, .primitive hkind⟩
    | any => exact ⟨_, .any⟩
    | definition hname => exact ⟨_, .model hname⟩
  | head hstep _ ih =>
    obtain ⟨v, hv⟩ := ih
    cases hstep with
    | items => exact ⟨_, .array hv⟩
    | values => exact ⟨_, .map hv⟩
    | aliased hname halias => exact ⟨_, .aliased hname halias hv⟩

/-- The types that denote something are those that settle. -/
theorem exists_denotes_iff : (∃ v, d.Denotes t v) ↔ d.Settles t := by
  constructor
  · rintro ⟨v, hv⟩
    refine ⟨hv.ends, fun name hway => ?_⟩
    obtain ⟨w, hw⟩ := hv.leads hway
    exact hw.not_cycle
  -- a way that ends excludes cycles, so that the second half is not needed
  · rintro ⟨⟨last, hway, hlast⟩, -⟩
    exact denotes_of_ends hway hlast

/-! ## Faults -/

/-- What a fault of a type says about it. -/
def Explains (d : Document) (t : TypeRef) : TypeFault → Prop
  | .unresolved name       => ReflTransGen d.Follows t (.reference name) ∧ ¬ d.knows name
  | .unknownPrimitive name => ∃ format values,
    ReflTransGen d.Follows t (.primitive name format values) ∧
      Primitive.ofSchema? name format = none
  | .aliasCycle name       => ReflTransGen d.Follows t (.reference name) ∧
    TransGen d.Follows (.reference name) (.reference name)

theorem Explains.of_follows {e : TypeFault} (he : d.Explains u e) (ht : d.Follows t u) :
    d.Explains t e := by
  cases e with
  | unresolved name => exact ⟨.head ht he.1, he.2⟩
  | unknownPrimitive name =>
    obtain ⟨format, values, hway, hkind⟩ := he
    exact ⟨format, values, .head ht hway, hkind⟩
  | aliasCycle name => exact ⟨.head ht he.1, he.2⟩

theorem knows_iff : d.knows name = true ↔
    name ∈ d.definitions.names ∨ name ∈ d.aliases.names := by
  simp [knows]

/-- A type with a fault denotes nothing. -/
theorem Explains.not_denotes {e : TypeFault} (he : d.Explains t e) : ¬ d.Denotes t v := by
  intro hv
  cases e with
  | unresolved name =>
    obtain ⟨w, hw⟩ := hv.leads he.1
    refine he.2 (knows_iff.2 ?_)
    cases hw with
    | model hname => exact .inl hname
    | aliased _ halias => exact .inr (OrderedMap.mem_names_of_get? halias)
  | unknownPrimitive name =>
    obtain ⟨format, values, hway, hkind⟩ := he
    obtain ⟨w, hw⟩ := hv.leads hway
    cases hw with
    | primitive hkind' => simp_all
  | aliasCycle name =>
    obtain ⟨w, hw⟩ := hv.leads he.1
    exact hw.not_cycle he.2

end Schema.Document

end TypedClient
