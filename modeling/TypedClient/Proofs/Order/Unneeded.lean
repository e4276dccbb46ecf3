import TypedClient.Proofs.Order.Next

/-!
# A model that nothing needs

A model that no other one needs is on no cycle, and nothing waits for it. It may come out at any time;
the order of the others is the one that they have without it.
-/

open Relation

namespace TypedClient.ModelEntry

variable {models : List ModelEntry} {a b e x : ModelEntry}

/-- No model of the list needs it. -/
def Unneeded (models : List ModelEntry) (x : ModelEntry) : Prop := ∀ a, ¬ Needs models a x

namespace Unneeded

theorem others (hx : Unneeded models x) (e : ModelEntry) : Unneeded (ModelEntry.others models e) x :=
  fun a hax => hx a (hax.mono (others_subset models e))

section Without

variable (hx : Unneeded models x) (h : Distinct models) (hmem : x ∈ models)

include hx h hmem

theorem needs_iff (ha : a.name ≠ x.name) :
    Needs models a b ↔ Needs (ModelEntry.others models x) a b := by
  constructor
  · intro hab
    have hb : b.name ≠ x.name := fun heq => hx a (h.eq_of_name hab.2.1 hmem heq ▸ hab)
    exact needs_others_iff.2 ⟨hab, ha, hb⟩
  · exact Needs.mono (others_subset models x)

theorem sink_iff (ha : a.name ≠ x.name) :
    Sink models a ↔ Sink (ModelEntry.others models x) a :=
  forall_congr' fun _ => not_congr (hx.needs_iff h hmem ha)

theorem transGen_iff (ha : a.name ≠ x.name) :
    TransGen (Needs models) a b ↔ TransGen (Needs (ModelEntry.others models x)) a b := by
  constructor
  · intro hab
    -- no way comes to `x`, so that each further step starts at another model
    induction hab using TransGen.head_induction_on with
    | single hab => exact .single ((hx.needs_iff h hmem ha).1 hab)
    | head hac _ ih =>
      have hac := (hx.needs_iff h hmem ha).1 hac
      exact .head hac (ih (needs_others_iff.1 hac).2.2)
  · exact transGen_mono (others_subset models x)

/-- What comes next, if it is another model, comes next without it as well. -/
theorem next?_others (hnext : next? models = some e) (hne : e.name ≠ x.name) :
    next? (ModelEntry.others models x) = some e := by
  have hkeep : decide (e.name ≠ x.name) = true := by simpa using hne
  rw [next?_eq_some_iff (h.others x)]
  rcases (next?_eq_some_iff h).1 hnext with hfirst | ⟨hwaiting, hfirst⟩
  · exact .inl ((hfirst.filter hkeep).congr fun a ha => hx.sink_iff h hmem (mem_others.1 ha).2)
  · refine .inr ⟨fun a ha hsink => ?_, ?_⟩
    · obtain ⟨ha, hname⟩ := mem_others.1 ha
      exact hwaiting a ha ((hx.sink_iff h hmem hname).2 hsink)
    · exact (hfirst.filter hkeep).congr fun a ha => hx.transGen_iff h hmem (mem_others.1 ha).2

end Without

/-- The order without it is the order of the others. -/
theorem others_ordered (hx : Unneeded models x) (h : Distinct models) (hmem : x ∈ models) :
    ModelEntry.others (ordered models) x = ordered (ModelEntry.others models x) := by
  -- along the run with it, until it is taken; from then on both runs are the same
  fun_induction ordered models with
  | case1 models hnext =>
    rw [next?_eq_none hnext] at hmem
    exact absurd hmem List.not_mem_nil
  | case2 models e hnext ih =>
    by_cases hne : e.name = x.name
    · have hex := h.eq_of_name (mem_of_next? hnext) hmem hne
      have hrest : ∀ a ∈ ordered (ModelEntry.others models x), a.name ≠ x.name := fun a ha =>
        (mem_others.1 ((mem_ordered (h.others x)).1 ha)).2
      rw [hex]
      simpa [ModelEntry.others] using hrest
    · have hx' : x ∈ ModelEntry.others models e := mem_others.2 ⟨hmem, fun heq => hne heq.symm⟩
      have hkeep : ModelEntry.others (e :: ordered (ModelEntry.others models e)) x =
          e :: ModelEntry.others (ordered (ModelEntry.others models e)) x :=
        List.filter_cons_of_pos (by simpa using hne)
      rw [hkeep, ih (hx.others e) (h.others e) hx', others_comm,
        ← ordered_of_next? (hx.next?_others h hmem hnext hne)]

end Unneeded

end TypedClient.ModelEntry
