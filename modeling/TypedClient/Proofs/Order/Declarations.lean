import TypedClient.Proofs.Order.Breaks

/-!
# The order of declarations

Models are declared after the models they need, except where a cycle has to be broken. What breaks a
cycle is chosen among all models on cycles, and not only among those whose cycle waits for no other
one. Main statement: a model is declared before one that it needs exactly when it gives it up, and
this may also be a model of another cycle.
-/

open Relation

namespace TypedClient

open ModelEntry (Needs BreaksCycle GivesUp ordered)

namespace TypeTable

/-- `a` is declared before `b`. -/
def Before (t : TypeTable) (a b : ModelEntry) : Prop :=
  [a.name, b.name].Sublist (t.declarations.map (·.name))

theorem map_name_values (t : TypeTable) : t.models.values.map (·.name) = t.models.names := by
  rw [OrderedMap.values, List.map_map]
  exact List.map_congr_left fun e he => t.named e he

theorem distinct_models (t : TypeTable) : ModelEntry.Distinct t.models.values := by
  rw [ModelEntry.Distinct, map_name_values]
  exact t.models.distinct

theorem names_declarations (t : TypeTable) :
    t.declarations.map (·.name) = (ordered t.models.values).map (·.name) := by
  rw [declarations, List.map_map]
  rfl

theorem nodup_declarations (t : TypeTable) : (t.declarations.map (·.name)).Nodup := by
  rw [names_declarations]
  exact t.distinct_models.ordered

/-- The declarations are those of the models in the table. -/
theorem mem_names_declarations {t : TypeTable} {name : String} :
    name ∈ t.declarations.map (·.name) ↔ name ∈ t.models.names := by
  rw [names_declarations, ← map_name_values]
  simp only [List.mem_map, ModelEntry.mem_ordered t.distinct_models]

variable {t : TypeTable} {a b c : ModelEntry}

theorem before_iff (ha : a ∈ t.models.values) (hb : b ∈ t.models.values) :
    t.Before a b ↔ [a, b].Sublist (ordered t.models.values) := by
  have hmem {x : ModelEntry} (hx : x ∈ t.models.values) : x ∈ ordered t.models.values :=
    (ModelEntry.mem_ordered t.distinct_models).2 hx
  have hnames {x y : ModelEntry} (h : [x, y].Sublist (ordered t.models.values)) : t.Before x y := by
    rw [Before, names_declarations]
    exact h.map (·.name)
  refine ⟨fun h => ?_, hnames⟩
  have hne : a ≠ b := by
    rintro rfl
    exact List.nodup_iff_sublist.1 t.nodup_declarations _ h
  rcases ModelEntry.pair_sublist_or (hmem ha) (hmem hb) hne with hab | hba
  · exact hab
  · exact absurd h (ModelEntry.pair_sublist_asymm t.nodup_declarations (hnames hba))

theorem Before.trans (hab : t.Before a b) (hbc : t.Before b c) : t.Before a c :=
  ModelEntry.pair_sublist_trans t.nodup_declarations hab hbc

/-- `a` depends on `b`, directly or through other models. -/
def DependsOn (t : TypeTable) : ModelEntry → ModelEntry → Prop := TransGen (Needs t.models.values)

theorem DependsOn.mem (h : t.DependsOn a b) : a ∈ t.models.values ∧ b ∈ t.models.values := by
  obtain ⟨x, hax, -⟩ := TransGen.head'_iff.1 h
  obtain ⟨y, -, hyb⟩ := TransGen.tail'_iff.1 h
  exact ⟨hax.1, hyb.2.1⟩

/-- A set of names that dependencies do not lead out of. -/
theorem DependsOn.mem_names {names : List String} (h : t.DependsOn a b) (ha : a.name ∈ names)
    (hstep : ∀ x ∈ t.models.values, ∀ y ∈ t.models.values, x.name ∈ names →
      y.name ∈ x.dependencies → y.name ∈ names) : b.name ∈ names := by
  induction h with
  | single hab => exact hstep _ hab.1 _ hab.2.1 ha hab.2.2.1
  | tail _ hbc ih => exact hstep _ hbc.1 _ hbc.2.1 ih hbc.2.2.1

theorem before_iff_not (ha : a ∈ t.models.values) (hb : b ∈ t.models.values) (hne : a ≠ b) :
    t.Before b a ↔ ¬ t.Before a b := by
  refine ⟨ModelEntry.pair_sublist_asymm t.nodup_declarations, fun hnot => ?_⟩
  rw [before_iff ha hb] at hnot
  rw [before_iff hb ha]
  exact (ModelEntry.pair_sublist_or ((ModelEntry.mem_ordered t.distinct_models).2 ha)
    ((ModelEntry.mem_ordered t.distinct_models).2 hb) hne).resolve_left hnot

/-- A model comes before one that needs it exactly when that one does not give it up. -/
theorem before_iff_not_givesUp (hab : Needs t.models.values a b) :
    t.Before b a ↔ ¬ GivesUp t.models.values a b := by
  have hne : a ≠ b := fun heq => hab.2.2.2 (congrArg ModelEntry.name heq).symm
  rw [before_iff_not hab.1 hab.2.1 hne, before_iff hab.1 hab.2.1,
    ModelEntry.pair_sublist_ordered_iff t.distinct_models hab.1 hab.2.1 hne (.inl hab)]

/-- What breaks a cycle comes before all other models that it gives up, and after the rest. -/
theorem before_iff_not_givesUp_of_breaks (ha : a ∈ t.models.values) (hb : b ∈ t.models.values)
    (hne : a ≠ b) (hbreaks : BreaksCycle t.models.values a) :
    t.Before b a ↔ ¬ GivesUp t.models.values a b := by
  rw [before_iff_not ha hb hne, before_iff ha hb,
    ModelEntry.pair_sublist_ordered_iff t.distinct_models ha hb hne (.inr hbreaks)]

/-- Where a model comes before one that it depends on, it leads to one that gives that one up. -/
theorem DependsOn.exists_givesUp (hab : t.DependsOn a b) (hne : a ≠ b) (hnot : ¬ t.Before b a) :
    ∃ x, (x = a ∨ t.DependsOn a x) ∧ t.DependsOn x b ∧ GivesUp t.models.values x b := by
  induction hab using TransGen.head_induction_on with
  | single hab =>
    exact ⟨_, .inl rfl, .single hab, not_not.1 (mt (before_iff_not_givesUp hab).2 hnot)⟩
  | @head a y hay hyb ih =>
    have hab : t.DependsOn a b := .head hay hyb
    by_cases hbreaks : BreaksCycle t.models.values a
    · have hiff := before_iff_not_givesUp_of_breaks hab.mem.1 hab.mem.2 hne hbreaks
      exact ⟨a, .inl rfl, hab, not_not.1 (mt hiff.2 hnot)⟩
    · -- what breaks no cycle comes after all that it needs
      have hya : t.Before y a :=
        (before_iff_not_givesUp hay).2 fun ⟨left, hleft, _⟩ => hbreaks ⟨left, hleft⟩
      have hyb' : y ≠ b := fun heq => hnot (heq ▸ hya)
      obtain ⟨x, hyx, hxb, hgives⟩ := ih hyb' fun hby => hnot (hby.trans hya)
      refine ⟨x, .inr ?_, hxb, hgives⟩
      rcases hyx with rfl | hyx
      · exact .single hay
      · exact .head hay hyx

/-- Which dependencies the order of declarations keeps. A direct one is kept unless it is given up
for breaking a cycle, and a chain is kept if each of its links is. So the direct dependencies that
lead out of their cycle are all kept exactly when none of them is given up. For dependencies through
other models one thing more is necessary: what a model gives up of its own cycle has to come before
the models outside that depend on the cycle. -/
theorem dependency_order (t : TypeTable) :
    (∀ a b, Needs t.models.values a b → (t.Before b a ↔ ¬ GivesUp t.models.values a b)) ∧
    (∀ a b, TransGen (fun x y => Needs t.models.values x y ∧ ¬ GivesUp t.models.values x y) a b →
      t.Before b a) ∧
    ((∀ a b, Needs t.models.values a b → ¬ t.DependsOn b a → t.Before b a) ↔
      ∀ a b, Needs t.models.values a b → GivesUp t.models.values a b → t.DependsOn b a) ∧
    ((∀ a b, t.DependsOn a b → ¬ t.DependsOn b a → t.Before b a) ↔
      (∀ a b, t.DependsOn a b → GivesUp t.models.values a b → t.DependsOn b a) ∧
      ∀ a x b, t.DependsOn a x → ¬ t.DependsOn x a → t.DependsOn x b → t.DependsOn b x →
        GivesUp t.models.values x b → t.Before b a) := by
  refine ⟨fun a b => before_iff_not_givesUp, fun a b hchain => ?_, ?_, ?_⟩
  · induction hchain with
    | single hab => exact (before_iff_not_givesUp hab.1).2 hab.2
    | tail _ hbc ih => exact ((before_iff_not_givesUp hbc.1).2 hbc.2).trans ih
  · constructor
    · intro hkept a b hab hgives
      by_contra hback
      exact (before_iff_not_givesUp hab).1 (hkept a b hab hback) hgives
    · intro hinside a b hab hback
      exact (before_iff_not_givesUp hab).2 fun hgives => hback (hinside a b hab hgives)
  · constructor
    · intro hkept
      refine ⟨fun a b hab hgives => ?_, fun a x b hax hback hxb hbx _ => ?_⟩
      · by_contra hback
        have hne : a ≠ b := fun heq => hback (heq ▸ heq ▸ hab)
        obtain ⟨left, hleft, -⟩ := id hgives
        exact (before_iff_not_givesUp_of_breaks hab.mem.1 hab.mem.2 hne ⟨left, hleft⟩).1
          (hkept a b hab hback) hgives
      · exact hkept a b (hax.trans hxb) fun hba => hback (hxb.trans hba)
    · rintro ⟨hinside, houtside⟩ a b hab hback
      by_contra hnot
      have hne : a ≠ b := fun heq => hback (heq ▸ heq ▸ hab)
      obtain ⟨x, hax, hxb, hgives⟩ := hab.exists_givesUp hne hnot
      have hbx := hinside x b hxb hgives
      rcases hax with rfl | hax
      · exact hback hbx
      · exact hnot (houtside a x b hax (fun hxa => hback (hbx.trans hxa)) hxb hbx hgives)

/-! ## Two chained cycles -/

/-- A model whose fields hold the given models. -/
def holder (name : String) (held : List String) : ModelEntry :=
  { name
    description := none
    fields := held.map fun target =>
      { name := target, type := .nullable (.model target), required := false, description := none,
        allowedValues := [] }
    dependencies := held }

/-- Owner and pet need each other, shop and clerk need each other, and the owner needs the shop. -/
def chainedCycles : TypeTable :=
  .ofModels [holder "Owner" ["Pet", "Shop"], holder "Pet" ["Owner"], holder "Shop" ["Clerk"],
    holder "Clerk" ["Shop"]] ∅

theorem owner_needs_shop :
    Needs chainedCycles.models.values (holder "Owner" ["Pet", "Shop"]) (holder "Shop" ["Clerk"]) := by
  decide +kernel

/-- The shop and the clerk lead to each other only. -/
theorem shop_not_dependsOn_owner :
    ¬ chainedCycles.DependsOn (holder "Shop" ["Clerk"]) (holder "Owner" ["Pet", "Shop"]) := by
  intro h
  have hname : (holder "Owner" ["Pet", "Shop"]).name ∈ ["Shop", "Clerk"] :=
    h.mem_names (by decide) (by decide +kernel)
  exact absurd hname (by decide)

/-- The owner is the first model on a cycle, and the shop is on the other cycle at that time. -/
theorem owner_givesUp_shop :
    GivesUp chainedCycles.models.values (holder "Owner" ["Pet", "Shop"])
      (holder "Shop" ["Clerk"]) := by
  have hpet : Needs chainedCycles.models.values (holder "Owner" ["Pet", "Shop"])
      (holder "Pet" ["Owner"]) := by decide +kernel
  have howner : Needs chainedCycles.models.values (holder "Pet" ["Owner"])
      (holder "Owner" ["Pet", "Shop"]) := by decide +kernel
  have hclerk : Needs chainedCycles.models.values (holder "Shop" ["Clerk"])
      (holder "Clerk" ["Shop"]) := by decide +kernel
  have hshop : Needs chainedCycles.models.values (holder "Clerk" ["Shop"])
      (holder "Shop" ["Clerk"]) := by decide +kernel
  have hcycle := (ModelEntry.onCycle_iff chainedCycles.distinct_models hpet.1).2
    (.tail (.single hpet) howner)
  refine ⟨chainedCycles.models.values, ?_, holder "Shop" ["Clerk"], .refl,
    .tail (.single hclerk) hshop⟩
  have hvalues : chainedCycles.models.values = holder "Owner" ["Pet", "Shop"] ::
      [holder "Pet" ["Owner"], holder "Shop" ["Clerk"], holder "Clerk" ["Shop"]] := by
    decide +kernel
  rw [hvalues] at hcycle ⊢
  rw [ModelEntry.cycleBreaks, if_pos hcycle]
  exact List.mem_cons_self

theorem owner_before_shop :
    Needs chainedCycles.models.values (holder "Owner" ["Pet", "Shop"]) (holder "Shop" ["Clerk"]) ∧
    ¬ chainedCycles.Before (holder "Shop" ["Clerk"]) (holder "Owner" ["Pet", "Shop"]) := by
  refine ⟨owner_needs_shop, fun hbefore => ?_⟩
  exact ((dependency_order chainedCycles).1 _ _ owner_needs_shop).1 hbefore owner_givesUp_shop

/-- A dependency that leads from one cycle to another one is not always kept. -/
theorem chained_dependency_not_kept : ¬ ∀ (t : TypeTable) (a b : ModelEntry),
    t.DependsOn a b → ¬ t.DependsOn b a → t.Before b a := by
  intro hkept
  have hbefore := hkept chainedCycles _ _ (.single owner_needs_shop) shop_not_dependsOn_owner
  exact (before_iff_not_givesUp owner_needs_shop).1 hbefore owner_givesUp_shop

end TypeTable

end TypedClient
