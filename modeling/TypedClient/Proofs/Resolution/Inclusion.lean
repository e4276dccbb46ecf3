import TypedClient.Proofs.Resolution.Table

/-!
# Documents that include others

A document that has more definitions and aliases than another one has the same types, flattened
definitions and models for all that the other one has. It must not define a name that is an alias
there, since a definition hides an alias of its name.
-/

namespace TypedClient.Schema.Document

variable {d d' : Document} {name : String} {type : TypeRef} {v : ValueType}
  {definition : Definition} {p : Property} {f : FieldEntry} {m : ModelEntry} {ps : List Property}

/-- What is found under a name in `d` is found there in `d'`, and no alias of `d` is hidden. -/
structure IncludedIn (d d' : Document) : Prop where
  definitions : ∀ name definition, d.definitions.get? name = some definition →
    d'.definitions.get? name = some definition
  aliases : ∀ name type, d.aliases.get? name = some type → d'.aliases.get? name = some type
  unhidden : ∀ name ∈ d.aliases.names, name ∈ d'.definitions.names → name ∈ d.definitions.names

namespace IncludedIn

variable (h : d.IncludedIn d')

include h

theorem denotes (hv : d.Denotes type v) : d'.Denotes type v := by
  induction hv with
  | primitive hkind => exact .primitive hkind
  | array _ ih => exact .array ih
  | map _ ih => exact .map ih
  | any => exact .any
  | model hname =>
    obtain ⟨definition, hget⟩ := OrderedMap.mem_names_iff.1 hname
    exact .model (OrderedMap.mem_names_of_get? (h.definitions _ _ hget))
  | aliased hname halias _ ih =>
    have hhidden := mt (h.unhidden _ (OrderedMap.mem_names_of_get? halias)) hname
    exact .aliased hhidden (h.aliases _ _ halias) ih

theorem denotesAlias (hv : d.DenotesAlias name v) : d'.DenotesAlias name v := by
  obtain ⟨type, halias, hv⟩ := hv
  exact ⟨type, h.aliases _ _ halias, h.denotes hv⟩

theorem flattens (hps : d.Flattens name ps) : d'.Flattens name ps := by
  induction hps with
  | definition inherited hget _ ih => exact .definition inherited (h.definitions _ _ hget) ih

theorem fieldOf (hf : d.FieldOf p f) : d'.FieldOf p f := by
  obtain ⟨v, hv, rfl⟩ := hf
  exact ⟨v, h.denotes hv, rfl⟩

theorem modelOf (hm : d.ModelOf name definition m) : d'.ModelOf name definition m := by
  obtain ⟨ps, fields, hps, hfields, rfl⟩ := hm
  exact ⟨ps, fields, h.flattens hps, hfields.imp fun _ _ => h.fieldOf, rfl⟩

end IncludedIn

end TypedClient.Schema.Document
