import Mathlib.Data.Fintype.Card
import Mathlib.Data.Set.Finite.Basic
import Mathlib.Order.WellFounded
import TypedClient.Model.Order
import TypedClient.Proofs.Search

/-!
# Dependencies among models

The models that are left at a point of the ordering form a graph, with an edge from a model to each
other model that it mentions. A model that waits for no other is a sink of that graph, and where
there is no sink every model leads to a cycle. Taking a sink away changes no cycle: this is what
carries facts about cycles from one point of the ordering to the next.
-/

open Relation

namespace TypedClient.ModelEntry

variable {models left : List ModelEntry} {a b s : ModelEntry}

/-- `a` mentions another model `b` of the list. -/
def Needs (models : List ModelEntry) (a b : ModelEntry) : Prop :=
  a ∈ models ∧ b ∈ models ∧ b.name ∈ a.dependencies ∧ b.name ≠ a.name

instance : Decidable (Needs models a b) := inferInstanceAs (Decidable (_ ∧ _ ∧ _ ∧ _))

/-- No two models of the list have one name. -/
def Distinct (models : List ModelEntry) : Prop := (models.map (·.name)).Nodup

/-- The model waits for no other. -/
def Sink (models : List ModelEntry) (s : ModelEntry) : Prop := ∀ b, ¬ Needs models s b

/-- Dependencies lead from `a` into a cycle. -/
def LeadsToCycle (models : List ModelEntry) (a : ModelEntry) : Prop :=
  ∃ c, ReflTransGen (Needs models) a c ∧ TransGen (Needs models) c c

theorem Distinct.eq_of_name (h : Distinct models) (ha : a ∈ models) (hb : b ∈ models)
    (hab : a.name = b.name) : a = b :=
  List.inj_on_of_nodup_map h ha hb hab

/-! ## A part of the list -/

theorem Needs.mono (hsub : left ⊆ models) (h : Needs left a b) : Needs models a b :=
  ⟨hsub h.1, hsub h.2.1, h.2.2⟩

theorem Sink.mono (hsub : left ⊆ models) (hs : Sink models s) : Sink left s :=
  fun b hsb => hs b (hsb.mono hsub)

theorem transGen_mono (hsub : left ⊆ models) (h : TransGen (Needs left) a b) :
    TransGen (Needs models) a b :=
  TransGen.mono (fun _ _ => Needs.mono hsub) a b h

theorem reflTransGen_mono (hsub : left ⊆ models) (h : ReflTransGen (Needs left) a b) :
    ReflTransGen (Needs models) a b :=
  ReflTransGen.mono (fun _ _ => Needs.mono hsub) a b h

/-! ## The list without one model -/

@[simp] theorem mem_others : a ∈ others models s ↔ a ∈ models ∧ a.name ≠ s.name := by
  simp [others]

theorem others_subset (models : List ModelEntry) (s : ModelEntry) : others models s ⊆ models :=
  List.filter_sublist.subset

theorem Distinct.others (h : Distinct models) (s : ModelEntry) : Distinct (others models s) :=
  h.sublist (List.filter_sublist.map _)

theorem others_comm (models : List ModelEntry) (a b : ModelEntry) :
    others (others models a) b = others (others models b) a := by
  simp only [others, List.filter_filter, Bool.and_comm]

theorem needs_others_iff :
    Needs (others models s) a b ↔ Needs models a b ∧ a.name ≠ s.name ∧ b.name ≠ s.name := by
  simp only [Needs, mem_others]
  tauto

/-! ## The tests of the ordering -/

theorem isEmpty_waitsFor (ha : a ∈ models) :
    (a.waitsFor models).isEmpty = true ↔ Sink models a := by
  simp only [waitsFor, List.isEmpty_iff, List.filter_eq_nil_iff, Sink, Needs]
  constructor
  · rintro h b ⟨-, hb, hname, hne⟩
    exact h b.name hname (by simpa [hne] using ⟨b, hb, rfl⟩)
  · intro h name hname hrest
    simp only [ne_eq, Bool.and_eq_true, decide_eq_true_eq, List.any_eq_true] at hrest
    obtain ⟨hne, b, hb, rfl⟩ := hrest
    exact h b ⟨ha, hb, hname, hne⟩

theorem find?_name (h : Distinct models) (ha : a ∈ models) :
    models.find? (·.name = a.name) = some a := by
  obtain ⟨b, hb⟩ := Option.isSome_iff_exists.1
    (List.find?_isSome.2 ⟨a, ha, by simp⟩ : (models.find? (·.name = a.name)).isSome)
  have hname : b.name = a.name := by simpa using List.find?_some hb
  rw [hb, h.eq_of_name (List.mem_of_find?_eq_some hb) ha hname]

theorem mem_dependenciesOf (h : Distinct models) (ha : a ∈ models) {name : String} :
    name ∈ dependenciesOf models a.name ↔ name ∈ a.dependencies ∧ name ≠ a.name := by
  simp [dependenciesOf, find?_name h ha]

/-- A way of names that ends at a model of the list leads along models of the list. -/
theorem exists_way_of_names (h : Distinct models) (ha : a ∈ models) {name : String}
    (hway : ReflTransGen (EdgeFrom (dependenciesOf models) (models.map (·.name))) name a.name) :
    ∃ b ∈ models, b.name = name ∧ ReflTransGen (Needs models) b a := by
  induction hway using ReflTransGen.head_induction_on with
  | refl => exact ⟨a, ha, rfl, .refl⟩
  | @head name next hedge _ ih =>
    obtain ⟨b, hb, rfl⟩ := List.mem_map.1 hedge.1
    obtain ⟨c, hc, rfl, hca⟩ := ih
    obtain ⟨hdep, hne⟩ := (mem_dependenciesOf h hb).1 hedge.2
    exact ⟨b, hb, rfl, .head ⟨hb, hc, hdep, hne⟩ hca⟩

theorem onCycle_iff (h : Distinct models) (ha : a ∈ models) :
    onCycle models a = true ↔ TransGen (Needs models) a a := by
  rw [onCycle, reaches_iff, TransGen.head'_iff]
  constructor
  · rintro ⟨name, hname, hway⟩
    obtain ⟨b, hb, rfl, hba⟩ := exists_way_of_names h ha hway
    obtain ⟨hdep, hne⟩ := (mem_dependenciesOf h ha).1 hname
    exact ⟨b, ⟨ha, hb, hdep, hne⟩, hba⟩
  · rintro ⟨b, hab, hba⟩
    refine ⟨b.name, (mem_dependenciesOf h ha).2 hab.2.2, ?_⟩
    refine ReflTransGen.lift name (fun x y hxy => ?_) _ _ hba
    exact ⟨List.mem_map_of_mem hxy.1, (mem_dependenciesOf h hxy.1).2 hxy.2.2⟩

/-! ## Sinks and cycles -/

/-- Where every model waits for another one, each leads into a cycle. -/
theorem leadsToCycle_of_no_sink (h : ∀ x ∈ models, ¬ Sink models x) (ha : a ∈ models) :
    LeadsToCycle models a := by
  by_contra hacyclic
  -- the models that `a` leads to would be well-founded under dependency
  let Reached := {x // x ∈ models ∧ ReflTransGen (Needs models) a x}
  let after (x y : Reached) : Prop := TransGen (Needs models) y.1 x.1
  have : Finite Reached :=
    Set.Finite.subset (List.finite_toSet models) (fun _ hx => hx.1)
  have : IsTrans Reached after := ⟨fun _ _ _ hxy hyz => hyz.trans hxy⟩
  have : Std.Irrefl after := ⟨fun x hx => hacyclic ⟨x.1, x.2.2, hx⟩⟩
  have hwf : WellFounded after := Finite.wellFounded_of_trans_of_irrefl _
  obtain ⟨⟨x, hx, hax⟩, -, hmin⟩ := hwf.has_min Set.univ ⟨⟨a, ha, .refl⟩, trivial⟩
  apply h x hx
  intro y hxy
  exact hmin ⟨y, hxy.2.1, hax.tail hxy⟩ trivial (.single hxy)

theorem Sink.eq_of_way (hs : Sink models s) (h : ReflTransGen (Needs models) s b) : s = b := by
  cases h using ReflTransGen.head_induction_on with
  | refl => rfl
  | head hab _ => exact absurd hab (hs _)

/-- No way between other models passes through a sink. -/
theorem Sink.way_iff (h : Distinct models) (hs : Sink models s) (hmem : s ∈ models)
    (hb : b.name ≠ s.name) :
    ReflTransGen (Needs models) a b ↔ ReflTransGen (Needs (ModelEntry.others models s)) a b := by
  constructor
  · intro hway
    induction hway using ReflTransGen.head_induction_on with
    | refl => exact .refl
    | @head a x hax hxb ih =>
      refine .head (needs_others_iff.2 ⟨hax, fun has => ?_, fun hxs => ?_⟩) ih
      · cases h.eq_of_name hax.1 hmem has
        exact hs x hax
      · cases h.eq_of_name hax.2.1 hmem hxs
        exact hb (congrArg name (hs.eq_of_way hxb)).symm
  · exact reflTransGen_mono (others_subset models s)

theorem Sink.transGen_iff (h : Distinct models) (hs : Sink models s) (hmem : s ∈ models)
    (hb : b.name ≠ s.name) :
    TransGen (Needs models) a b ↔ TransGen (Needs (ModelEntry.others models s)) a b := by
  rw [TransGen.tail'_iff, TransGen.tail'_iff]
  constructor
  · rintro ⟨x, hax, hxb⟩
    have hx : x.name ≠ s.name := fun hxs => by
      cases h.eq_of_name hxb.1 hmem hxs
      exact hs b hxb
    exact ⟨x, (hs.way_iff h hmem hx).1 hax, needs_others_iff.2 ⟨hxb, hx, hb⟩⟩
  · rintro ⟨x, hax, hxb⟩
    exact ⟨x, reflTransGen_mono (others_subset models s) hax, hxb.mono (others_subset models s)⟩

/-- A model on a cycle is no sink. -/
theorem Sink.name_ne_of_cycle (h : Distinct models) (hs : Sink models s) (hmem : s ∈ models)
    (ha : TransGen (Needs models) a a) : a.name ≠ s.name := by
  intro has
  obtain ⟨x, hax, -⟩ := TransGen.head'_iff.1 ha
  cases h.eq_of_name hax.1 hmem has
  exact hs x hax

theorem Sink.cycle_iff (h : Distinct models) (hs : Sink models s) (hmem : s ∈ models) :
    TransGen (Needs models) a a ↔ TransGen (Needs (ModelEntry.others models s)) a a :=
  ⟨fun ha => (hs.transGen_iff h hmem (hs.name_ne_of_cycle h hmem ha)).1 ha,
    transGen_mono (others_subset models s)⟩

theorem Sink.leadsToCycle_iff (h : Distinct models) (hs : Sink models s) (hmem : s ∈ models) :
    LeadsToCycle models a ↔ LeadsToCycle (ModelEntry.others models s) a := by
  constructor
  · rintro ⟨c, hac, hc⟩
    exact ⟨c, (hs.way_iff h hmem (hs.name_ne_of_cycle h hmem hc)).1 hac, (hs.cycle_iff h hmem).1 hc⟩
  · rintro ⟨c, hac, hc⟩
    exact ⟨c, reflTransGen_mono (others_subset models s) hac, (hs.cycle_iff h hmem).2 hc⟩

/-- A sink leads nowhere. -/
theorem Sink.not_leadsToCycle (hs : Sink models s) : ¬ LeadsToCycle models s := by
  rintro ⟨c, hsc, hc⟩
  cases hs.eq_of_way hsc
  obtain ⟨x, hsx, -⟩ := TransGen.head'_iff.1 hc
  exact hs x hsx

end TypedClient.ModelEntry
