import TypedClient.Proofs.Order.Canonical

/-!
# Components

Models that depend on each other form a component. None of them can come out before one of them
breaks a cycle, and until then they depend on each other among the models that are left: a way from
one to another stays within the component, and so passes through nothing that has been taken. The
first of them that breaks a cycle is the one that is declared first, whatever other cycles are broken
before.
-/

open Relation

namespace TypedClient

namespace ModelEntry

variable {models left todo : List ModelEntry} {a b e x y : ModelEntry}

/-- The two models depend on each other, directly or through others of the list. -/
def Mutual (models : List ModelEntry) (a b : ModelEntry) : Prop :=
  TransGen (Needs models) a b ∧ TransGen (Needs models) b a

theorem Mutual.self (hab : Mutual models a b) : Mutual models a a :=
  ⟨hab.1.trans hab.2, hab.1.trans hab.2⟩

theorem Mutual.of_others (hab : Mutual (others models e) a b) : Mutual models a b :=
  ⟨transGen_mono (others_subset models e) hab.1, transGen_mono (others_subset models e) hab.2⟩

theorem Mutual.name_ne (hab : Mutual models a b) (h : Distinct models) (he : e ∈ models)
    (hout : ¬ Mutual models a e) : b.name ≠ e.name := by
  intro heq
  obtain ⟨x, hbx, -⟩ := TransGen.head'_iff.1 hab.2
  exact hout (h.eq_of_name hbx.1 he heq ▸ hab)

/-- A way within a component passes through no model outside. -/
theorem way_others (h : Distinct models) (he : e ∈ models) (hout : ¬ Mutual models a e)
    (hax : TransGen (Needs models) a x) (hxy : TransGen (Needs models) x y)
    (hya : TransGen (Needs models) y a) : TransGen (Needs (others models e)) x y := by
  have hne {z : ModelEntry} (haz : TransGen (Needs models) a z) (hza : TransGen (Needs models) z a) :
      z.name ≠ e.name := Mutual.name_ne ⟨haz, hza⟩ h he hout
  -- each model on the way is reached from `a` and leads on to it
  induction hxy with
  | single hxy =>
    exact .single (needs_others_iff.2 ⟨hxy, hne hax (.head hxy hya), hne (hax.tail hxy) hya⟩)
  | tail hxz hzy ih =>
    have haz := hax.trans hxz
    have hza := TransGen.head hzy hya
    exact (ih hza).tail (needs_others_iff.2 ⟨hzy, hne haz hza, hne (haz.tail hzy) hya⟩)

theorem Mutual.others (hab : Mutual models a b) (h : Distinct models) (he : e ∈ models)
    (hout : ¬ Mutual models a e) : Mutual (ModelEntry.others models e) a b :=
  ⟨way_others h he hout hab.self.1 hab.1 hab.2, way_others h he hout hab.1 hab.2 hab.self.1⟩

/-- A model with none of its component before it breaks a cycle, and its component is left then. -/
theorem exists_cycleBreaks {before : List ModelEntry} (after : List ModelEntry) (h : Distinct models)
    (hmem : before ⊆ models) (hnodup : Distinct before) (hcycle : Mutual models a a)
    (hbefore : ∀ e ∈ before, ¬ Mutual models a e) :
    ∃ left, (a, left) ∈ cycleBreaks models (before ++ a :: after) ∧
      ∀ b, Mutual models a b → Mutual left a b := by
  -- along the models before it: those that break a cycle are taken, and are not of the component
  induction before generalizing models with
  | nil =>
    obtain ⟨x, hax, -⟩ := TransGen.head'_iff.1 hcycle.1
    have htest := (onCycle_iff h hax.1).2 hcycle.1
    rw [List.nil_append, cycleBreaks, if_pos htest]
    exact ⟨models, List.mem_cons_self, fun b hab => hab⟩
  | cons e before ih =>
    obtain ⟨he, hmem⟩ := List.cons_subset.1 hmem
    obtain ⟨hnew, hnodup⟩ := List.nodup_cons.1 hnodup
    obtain ⟨hout, hbefore⟩ := List.forall_mem_cons.1 hbefore
    rw [List.cons_append, cycleBreaks]
    split
    · have hmem' : before ⊆ others models e := by
        intro x hx
        exact mem_others.2 ⟨hmem hx, fun heq => hnew (List.mem_map.2 ⟨x, hx, heq⟩)⟩
      obtain ⟨left, hleft, hmutual⟩ := ih (h.others e) hmem' hnodup (hcycle.others h he hout)
        fun x hx hax => hbefore x hx hax.of_others
      exact ⟨left, List.mem_cons_of_mem _ hleft, fun b hab => hmutual b (hab.others h he hout)⟩
    · exact ih h hmem hnodup hcycle hbefore

/-- The first model of a component gives up all others of it. -/
theorem First.pair_sublist_ordered (h : Distinct models) (hfirst : First (Mutual models a) models a)
    (hab : Mutual models a b) (hne : a ≠ b) : [a, b].Sublist (ordered models) := by
  obtain ⟨hcycle, before, after, hmodels, hbefore⟩ := hfirst
  have hsub : before.Sublist models := hmodels ▸ List.sublist_append_left _ _
  obtain ⟨left, hleft, hmutual⟩ := exists_cycleBreaks after h hsub.subset (h.sublist (hsub.map _))
    hcycle hbefore
  rw [← hmodels] at hleft
  obtain ⟨x, hax, -⟩ := TransGen.head'_iff.1 hab.1
  obtain ⟨y, -, hyb⟩ := TransGen.tail'_iff.1 hab.1
  -- when `a` breaks its cycle, `b` is left and leads to it
  rw [pair_sublist_ordered_iff h hax.1 hyb.2.1 hne (.inr ⟨left, hleft⟩)]
  exact ⟨left, hleft, a, (hmutual b hab).2.to_reflTransGen, (hmutual a hcycle).1⟩

end ModelEntry

namespace TypeTable

variable {t : TypeTable} {s : Set ModelEntry} {a b : ModelEntry}

/-- `s` has more than one model, and with each of them exactly those that it depends on and that
depend on it. -/
structure Component (t : TypeTable) (s : Set ModelEntry) : Prop where
  nontrivial : s.Nontrivial
  mem_iff : ∀ a ∈ s, ∀ b, b ≠ a → (b ∈ s ↔ t.DependsOn a b ∧ t.DependsOn b a)

theorem Component.mutual_iff (hs : t.Component s) (ha : a ∈ s) :
    ModelEntry.Mutual t.models.values a b ↔ b ∈ s := by
  by_cases hne : b = a
  · subst hne
    obtain ⟨c, hc, hcb⟩ := hs.nontrivial.exists_ne b
    exact iff_of_true (ModelEntry.Mutual.self ((hs.mem_iff b ha c hcb).1 hc)) ha
  · exact (hs.mem_iff a ha b hne).symm

/-- Of the models of a component the one that is declared first in the document comes out before all
others. -/
theorem component_first (hs : t.Component s) :
    ∃ a ∈ s, ∀ b ∈ s, b ≠ a → t.Earlier a b ∧ t.Before a b := by
  have hvalues {a : ModelEntry} (ha : a ∈ s) : a ∈ t.models.values :=
    (DependsOn.mem ((hs.mutual_iff ha).2 ha).1).1
  obtain ⟨c, hc⟩ := hs.nontrivial.nonempty
  obtain ⟨a, hfirst⟩ := ModelEntry.exists_first ⟨c, hvalues hc, hc⟩
  refine ⟨a, hfirst.1, fun b hb hne => ⟨?_, ?_⟩⟩
  · exact earlier_of_sublist (hfirst.pair_sublist (hvalues hb) hb hne)
  · rw [before_iff (hvalues hfirst.1) (hvalues hb)]
    have hmutual := hfirst.congr fun x _ => (hs.mutual_iff hfirst.1).symm
    exact hmutual.pair_sublist_ordered t.distinct_models ((hs.mutual_iff hfirst.1).2 hb) hne.symm

/-- Pets have owners, owners a vet, and the vet has them all. Tags and their makers need each other;
pets have tags, and the visit of an owner comes first in the document. -/
def clinic : TypeTable :=
  .ofModels [holder "Visit" ["Owner"], holder "Tag" ["Maker"], holder "Maker" ["Tag"],
    holder "Pet" ["Owner", "Tag"], holder "Owner" ["Vet"], holder "Vet" ["Pet", "Owner"]] ∅

def patients : Set ModelEntry :=
  {e | e ∈ clinic.models.values ∧ e.name ∈ ["Pet", "Owner", "Vet"]}

theorem clinic_component : clinic.Component patients := by
  have howner : clinic.DependsOn (holder "Pet" ["Owner", "Tag"]) (holder "Owner" ["Vet"]) :=
    .single (by decide +kernel)
  have hvet : clinic.DependsOn (holder "Owner" ["Vet"]) (holder "Vet" ["Pet", "Owner"]) :=
    .single (by decide +kernel)
  have hpet : clinic.DependsOn (holder "Vet" ["Pet", "Owner"]) (holder "Pet" ["Owner", "Tag"]) :=
    .single (by decide +kernel)
  have hthree : ∀ e ∈ clinic.models.values, e.name ∈ ["Pet", "Owner", "Vet"] →
      e = holder "Pet" ["Owner", "Tag"] ∨ e = holder "Owner" ["Vet"] ∨
        e = holder "Vet" ["Pet", "Owner"] := by
    decide +kernel
  -- each of the three leads to the pet, and the pet to each of them
  have hmutual : ∀ e ∈ patients, clinic.DependsOn (holder "Pet" ["Owner", "Tag"]) e ∧
      clinic.DependsOn e (holder "Pet" ["Owner", "Tag"]) := by
    intro e he
    rcases hthree e he.1 he.2 with rfl | rfl | rfl
    · exact ⟨(howner.trans hvet).trans hpet, (howner.trans hvet).trans hpet⟩
    · exact ⟨howner, hvet.trans hpet⟩
    · exact ⟨howner.trans hvet, hpet⟩
  refine ⟨⟨holder "Pet" ["Owner", "Tag"], ⟨howner.mem.1, by decide⟩, holder "Owner" ["Vet"],
    ⟨howner.mem.2, by decide⟩, by decide⟩, fun a ha b _ => ⟨fun hb => ?_, fun hab => ?_⟩⟩
  · exact ⟨(hmutual a ha).2.trans (hmutual b hb).1, (hmutual b hb).2.trans (hmutual a ha).1⟩
  · -- nothing leads to the visit, and the tags lead to each other only
    have hname : b.name ∈ ["Pet", "Owner", "Vet"] ++ ["Tag", "Maker"] :=
      hab.1.mem_names (List.mem_append_left _ ha.2) (by decide +kernel)
    rcases List.mem_append.1 hname with hb | hb
    · exact ⟨hab.1.mem.2, hb⟩
    · have htags : a.name ∈ ["Tag", "Maker"] := hab.2.mem_names hb (by decide +kernel)
      rcases hthree a ha.1 ha.2 with rfl | rfl | rfl <;> exact absurd htags (by decide)

/-- The tag breaks its cycle before, and of the three the pet comes out first. -/
theorem clinic_first : clinic.Component patients ∧
    clinic.declarations.map (·.name) = ["Tag", "Maker", "Pet", "Owner", "Visit", "Vet"] ∧
    ∃ a ∈ patients, ∀ b ∈ patients, b ≠ a → clinic.Earlier a b ∧ clinic.Before a b :=
  ⟨clinic_component, by decide +kernel, component_first clinic_component⟩

end TypeTable

end TypedClient
