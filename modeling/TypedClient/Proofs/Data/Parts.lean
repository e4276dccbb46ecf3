import Mathlib.Tactic.Tauto
import TypedClient.Proofs.Data.Entries

/-!
# The parts of data

A node holds the items of a list, the values of a mapping and what stands under a tag. Keys are no
parts: which keys a mapping may have is a property of the mapping.
-/

namespace TypedClient.Data

variable {d part : Data} {items : List Data} {entries : List (Data × Data)}
  {e : Data × Data} {tag : String}

/-- What holds of a node if it holds of all that the node holds, holds of every node. -/
@[elab_as_elim]
theorem induct {motive : Data → Prop} (null : motive .null) (bool : ∀ b, motive (.bool b))
    (number : ∀ n, motive (.number n)) (text : ∀ s, motive (.text s))
    (list : ∀ items, (∀ d ∈ items, motive d) → motive (.list items))
    (mapping : ∀ entries, (∀ e ∈ entries, motive e.2) → motive (.mapping entries))
    (tagged : ∀ tag value, motive value → motive (.tagged tag value)) (d : Data) : motive d :=
  @Data.rec motive (fun items => ∀ d ∈ items, motive d) (fun entries => ∀ e ∈ entries, motive e.2)
    (fun e => motive e.2) null bool number text list mapping tagged
    (List.forall_mem_nil _) (fun _ _ hd ih => List.forall_mem_cons.2 ⟨hd, ih⟩)
    (List.forall_mem_nil _) (fun _ _ he ih => List.forall_mem_cons.2 ⟨he, ih⟩)
    (fun _ _ _ hvalue => hvalue) d

/-- `Part part d`: the node `d` is `part` or holds it at some depth. -/
inductive Part (part : Data) : Data → Prop where
  | self : Part part part
  | item {d : Data} {items : List Data} : d ∈ items → Part part d → Part part (.list items)
  | value {e : Data × Data} {entries : List (Data × Data)} :
      e ∈ entries → Part part e.2 → Part part (.mapping entries)
  | content {tag : String} {d : Data} : Part part d → Part part (.tagged tag d)

/-! ## Distinct keys -/

/-- The keys of each mapping are distinct. -/
def DistinctKeys (d : Data) : Prop :=
  ∀ entries, Part (.mapping entries) d → Distinct entries

theorem distinctKeys_list_iff : DistinctKeys (.list items) ↔ ∀ d ∈ items, DistinctKeys d := by
  constructor
  · intro h d hd entries hpart
    exact h entries (.item hd hpart)
  · intro h entries hpart
    cases hpart with
    | item hd hpart => exact h _ hd entries hpart

theorem distinctKeys_mapping_iff : DistinctKeys (.mapping entries) ↔
    Distinct entries ∧ ∀ e ∈ entries, DistinctKeys e.2 := by
  constructor
  · intro h
    exact ⟨h entries .self, fun e he entries' hpart => h entries' (.value he hpart)⟩
  · rintro ⟨hdistinct, hvalues⟩ entries' hpart
    cases hpart with
    | self => exact hdistinct
    | value he hpart => exact hvalues _ he entries' hpart

theorem distinctKeys_mapping_nil : DistinctKeys (.mapping []) :=
  distinctKeys_mapping_iff.2 ⟨.nil, List.forall_mem_nil _⟩

/-- One more entry. -/
theorem distinctKeys_append_singleton : DistinctKeys (.mapping (entries ++ [e])) ↔
    DistinctKeys (.mapping entries) ∧ hasKey entries e.1 = false ∧ DistinctKeys e.2 := by
  rw [distinctKeys_mapping_iff, distinctKeys_mapping_iff, distinct_append_singleton,
    List.forall_mem_append, List.forall_mem_singleton]
  tauto

theorem distinctKeys_tagged_iff : DistinctKeys (.tagged tag d) ↔ DistinctKeys d := by
  constructor
  · intro h entries hpart
    exact h entries (.content hpart)
  · intro h entries hpart
    cases hpart with
    | content hpart => exact h entries hpart

/-- A node that holds no other node. -/
def IsScalar : Data → Prop
  | .list _ | .mapping _ | .tagged _ _ => False
  | _ => True

theorem IsScalar.distinctKeys (h : d.IsScalar) : DistinctKeys d := by
  intro entries hpart
  cases hpart with
  | self => cases h
  | item => cases h
  | value => cases h
  | content => cases h

end TypedClient.Data
