import TypedClient.Proofs.Order.Next

/-!
# Where the order of models breaks a dependency

Where every model that is left waits for another one, the ordering takes the first model on a cycle,
and gives up what that model still waits for. The models taken in this way are found by going through
the list once: a model breaks a cycle if it is on one that avoids the models that broke one before.
What it gives up is each dependency that still leads to a cycle then. All other dependencies hold:
the model that is needed comes before the one that needs it.
-/

open Relation

namespace TypedClient.ModelEntry

variable {models left todo : List ModelEntry} {a b e s : ModelEntry}

/-- The models of `todo` that break cycles, each with the models among which it is on a cycle. -/
def cycleBreaks (models : List ModelEntry) : List ModelEntry → List (ModelEntry × List ModelEntry)
  | []        => []
  | e :: rest =>
    if onCycle models e then (e, models) :: cycleBreaks (others models e) rest
    else cycleBreaks models rest

def BreaksCycle (models : List ModelEntry) (a : ModelEntry) : Prop :=
  ∃ left, (a, left) ∈ cycleBreaks models models

/-- `a` breaks a cycle while `b` cannot come out yet, since it leads to a cycle itself. -/
def GivesUp (models : List ModelEntry) (a b : ModelEntry) : Prop :=
  ∃ left, (a, left) ∈ cycleBreaks models models ∧ LeadsToCycle left b

/-! ## One step of the ordering -/

/-- The model that comes next is a sink, or there is none and it is the first one on a cycle. -/
theorem next?_cases (h : Distinct models) (hnext : next? models = some e) :
    e ∈ models ∧ (Sink models e ∨
      (∀ x ∈ models, ¬ Sink models x) ∧ models.find? (onCycle models) = some e) := by
  refine ⟨mem_of_next? hnext, ?_⟩
  rcases (next?_eq_some_iff h).1 hnext with hfirst | ⟨hwaiting, hfirst⟩
  · exact .inl hfirst.1
  · have htest := hfirst.congr fun x hx => (onCycle_iff h hx).symm
    exact .inr ⟨hwaiting, find?_eq_some_iff_first.2 htest⟩

/-! ## Breaks of cycles -/

theorem onCycle_others (h : Distinct models) (ha : a ∈ models) (hs : Sink models s)
    (hmem : s ∈ models) (has : a.name ≠ s.name) :
    onCycle (others models s) a = onCycle models a := by
  rw [Bool.eq_iff_iff, onCycle_iff h ha, onCycle_iff (h.others s) (mem_others.2 ⟨ha, has⟩)]
  exact (hs.cycle_iff h hmem).symm

theorem Sink.others (hs : Sink models s) (e : ModelEntry) : Sink (ModelEntry.others models e) s :=
  hs.mono (others_subset models e)

/-- A break leaves a part of the list. -/
theorem sublist_of_cycleBreaks (hleft : (a, left) ∈ cycleBreaks models todo) :
    left.Sublist models := by
  induction todo generalizing models with
  | nil => exact absurd hleft List.not_mem_nil
  | cons e rest ih =>
    simp only [cycleBreaks] at hleft
    split at hleft
    · rcases List.mem_cons.1 hleft with heq | hleft
      · cases heq
        exact .refl _
      · exact (ih hleft).trans List.filter_sublist
    · exact ih hleft

/-- What breaks a cycle is on one among the models that are left. -/
theorem cycle_of_cycleBreaks (h : Distinct models) (htodo : todo ⊆ models) (hnodup : Distinct todo)
    (hleft : (a, left) ∈ cycleBreaks models todo) : TransGen (Needs left) a a := by
  induction todo generalizing models with
  | nil => exact absurd hleft List.not_mem_nil
  | cons e rest ih =>
    obtain ⟨he, hrest⟩ := List.cons_subset.1 htodo
    obtain ⟨hne, hnodup⟩ := List.nodup_cons.1 hnodup
    simp only [cycleBreaks] at hleft
    split at hleft
    · rename_i hcycle
      rcases List.mem_cons.1 hleft with heq | hleft
      · cases heq
        exact (onCycle_iff h he).1 hcycle
      · refine ih (h.others e) (fun x hx => ?_) hnodup hleft
        exact mem_others.2 ⟨hrest hx, fun hxe => hne (List.mem_map.2 ⟨x, hx, hxe⟩)⟩
    · exact ih h hrest hnodup hleft

/-- No break takes a sink away. -/
theorem sink_mem_of_cycleBreaks (h : Distinct models) (hs : Sink models s) (hmem : s ∈ models)
    (htodo : todo ⊆ models) (hnodup : Distinct todo)
    (hleft : (a, left) ∈ cycleBreaks models todo) : s ∈ left := by
  induction todo generalizing models with
  | nil => exact absurd hleft List.not_mem_nil
  | cons e rest ih =>
    obtain ⟨he, hrest⟩ := List.cons_subset.1 htodo
    obtain ⟨hne, hnodup⟩ := List.nodup_cons.1 hnodup
    simp only [cycleBreaks] at hleft
    split at hleft
    · rename_i hcycle
      rcases List.mem_cons.1 hleft with heq | hleft
      · cases heq
        exact hmem
      · have hse := (hs.name_ne_of_cycle h hmem ((onCycle_iff h he).1 hcycle)).symm
        refine ih (h.others e) (hs.others e) (mem_others.2 ⟨hmem, hse⟩) (fun x hx => ?_) hnodup hleft
        exact mem_others.2 ⟨hrest hx, fun hxe => hne (List.mem_map.2 ⟨x, hx, hxe⟩)⟩
    · exact ih h hs hmem hrest hnodup hleft

/-- Without a sink the same models break cycles. -/
theorem cycleBreaks_others (h : Distinct models) (hs : Sink models s) (hmem : s ∈ models)
    (htodo : todo ⊆ models) (hnodup : Distinct todo) :
    cycleBreaks (others models s) (others todo s) =
      (cycleBreaks models todo).map fun p => (p.1, others p.2 s) := by
  induction todo generalizing models with
  | nil => rfl
  | cons e rest ih =>
    obtain ⟨he, hrest⟩ := List.cons_subset.1 htodo
    obtain ⟨hne, hnodup⟩ := List.nodup_cons.1 hnodup
    by_cases hes : e.name = s.name
    · -- the sink itself is on no cycle
      have hcycle : onCycle models e = false := by
        rw [Bool.eq_false_iff, ne_eq, onCycle_iff h he]
        exact fun hcycle => hs.name_ne_of_cycle h hmem hcycle hes
      have hskip : others (e :: rest) s = others rest s := by simp [others, hes]
      rw [hskip, cycleBreaks, hcycle, ih h hs hmem hrest hnodup]
      rfl
    · have hkeep : others (e :: rest) s = e :: others rest s := by simp [others, hes]
      rw [hkeep, cycleBreaks, cycleBreaks, onCycle_others h he hs hmem hes]
      split
      · have hrest' : rest ⊆ others models e := fun x hx =>
          mem_others.2 ⟨hrest hx, fun hxe => hne (List.mem_map.2 ⟨x, hx, hxe⟩)⟩
        rw [others_comm, ih (h.others e) (hs.others e) (mem_others.2 ⟨hmem, Ne.symm hes⟩) hrest' hnodup]
        rfl
      · exact ih h hs hmem hrest hnodup

theorem cycleBreaks_append (rest : List ModelEntry) (h : ∀ x ∈ todo, onCycle models x = false) :
    cycleBreaks models (todo ++ rest) = cycleBreaks models rest := by
  induction todo with
  | nil => rfl
  | cons e todo ih =>
    rw [List.cons_append, cycleBreaks, h e List.mem_cons_self]
    exact ih fun x hx => h x (List.mem_cons_of_mem _ hx)

/-- The first model on a cycle is the first to break one; then those that are left do. -/
theorem cycleBreaks_first (h : Distinct models) (hfirst : models.find? (onCycle models) = some e) :
    cycleBreaks models models =
      (e, models) :: cycleBreaks (others models e) (others models e) := by
  obtain ⟨hcycle, before, after, rfl, hbefore⟩ := List.find?_eq_some_iff_append.1 hfirst
  have hbefore : ∀ x ∈ before, onCycle (before ++ e :: after) x = false := by simpa using hbefore
  have hname : ∀ x ∈ before ++ after, x.name ≠ e.name := by
    unfold Distinct at h
    grind
  have hothers : others (before ++ e :: after) e = before ++ after := by
    simp only [others, List.filter_append, ne_eq, not_true_eq_false, decide_false,
      Bool.false_eq_true, not_false_eq_true, List.filter_cons_of_neg]
    rw [← List.filter_append]
    exact List.filter_eq_self.2 fun x hx => by simpa using hname x hx
  -- taking a model away makes no new cycles, so that those before it break none later
  have hskip : ∀ x ∈ before, onCycle (before ++ after) x = false := by
    intro x hx
    rw [Bool.eq_false_iff, ne_eq, ← hothers,
      onCycle_iff (h.others e) (by rw [hothers]; exact List.mem_append_left _ hx)]
    intro hx'
    have := (onCycle_iff h (List.mem_append_left _ hx)).2
      (transGen_mono (others_subset _ e) hx')
    rw [hbefore x hx] at this
    exact Bool.false_ne_true this
  rw [cycleBreaks_append _ hbefore, cycleBreaks, if_pos hcycle, hothers, cycleBreaks_append _ hskip]

theorem LeadsToCycle.mem (h : LeadsToCycle models a) : a ∈ models := by
  obtain ⟨c, hac, hc⟩ := h
  cases hac using ReflTransGen.head_induction_on with
  | refl => exact (TransGen.head'_iff.1 hc).choose_spec.1.1
  | head hab _ => exact hab.1

/-- Taking a sink away gives up nothing and restores nothing. -/
theorem givesUp_others_iff (h : Distinct models) (hs : Sink models s) (hmem : s ∈ models) :
    GivesUp models a b ↔ GivesUp (others models s) a b := by
  have hleads {left : List ModelEntry} (hleft : (a, left) ∈ cycleBreaks models models) :
      LeadsToCycle left b ↔ LeadsToCycle (others left s) b := by
    have hsub := sublist_of_cycleBreaks hleft
    exact (hs.mono hsub.subset).leadsToCycle_iff (h.sublist (hsub.map _))
      (sink_mem_of_cycleBreaks h hs hmem (List.Subset.refl _) h hleft)
  unfold GivesUp
  rw [cycleBreaks_others h hs hmem (List.Subset.refl _) h]
  constructor
  · rintro ⟨left, hleft, hb⟩
    exact ⟨others left s, List.mem_map_of_mem (f := fun p => (p.1, others p.2 s)) hleft,
      (hleads hleft).1 hb⟩
  · rintro ⟨_, hleft, hb⟩
    obtain ⟨⟨_, left⟩, hbreak, heq⟩ := List.mem_map.1 hleft
    cases heq
    exact ⟨left, hbreak, (hleads hbreak).2 hb⟩

theorem breaksCycle_others_iff (h : Distinct models) (hs : Sink models s) (hmem : s ∈ models) :
    BreaksCycle models a ↔ BreaksCycle (others models s) a := by
  unfold BreaksCycle
  rw [cycleBreaks_others h hs hmem (List.Subset.refl _) h]
  constructor
  · rintro ⟨left, hleft⟩
    exact ⟨others left s, List.mem_map_of_mem (f := fun p => (p.1, others p.2 s)) hleft⟩
  · rintro ⟨_, hleft⟩
    obtain ⟨⟨_, left⟩, hbreak, heq⟩ := List.mem_map.1 hleft
    cases heq
    exact ⟨left, hbreak⟩

theorem breaksCycle_first_iff (h : Distinct models)
    (hfirst : models.find? (onCycle models) = some e) :
    BreaksCycle models a ↔ a = e ∨ BreaksCycle (others models e) a := by
  unfold BreaksCycle
  simp only [cycleBreaks_first h hfirst, List.mem_cons, Prod.mk.injEq, exists_or]
  exact or_congr_left ⟨fun ⟨_, ha, _⟩ => ha, fun ha => ⟨models, ha, rfl⟩⟩

/-- A sink breaks no cycle. -/
theorem Sink.not_breaksCycle (h : Distinct models) (hs : Sink models s) :
    ¬ BreaksCycle models s := by
  rintro ⟨left, hleft⟩
  obtain ⟨x, hsx, -⟩ := TransGen.head'_iff.1 (cycle_of_cycleBreaks h (List.Subset.refl _) h hleft)
  exact hs x (hsx.mono (sublist_of_cycleBreaks hleft).subset)

/-- Nothing gives up a sink. -/
theorem Sink.not_givesUp (hs : Sink models s) : ¬ GivesUp models a s := by
  rintro ⟨left, hleft, hlead⟩
  exact (hs.mono (sublist_of_cycleBreaks hleft).subset).not_leadsToCycle hlead

/-- Where the first model on a cycle breaks it, that model gives up all that is left, and what else
is given up is given up later. -/
theorem givesUp_first_iff (h : Distinct models) (hwaiting : ∀ x ∈ models, ¬ Sink models x)
    (hfirst : models.find? (onCycle models) = some e) (hb : b ∈ models) :
    GivesUp models a b ↔ a = e ∨ GivesUp (others models e) a b := by
  unfold GivesUp
  simp only [cycleBreaks_first h hfirst, List.mem_cons, Prod.mk.injEq]
  constructor
  · rintro ⟨left, ⟨rfl, -⟩ | hleft, hlead⟩
    · exact .inl rfl
    · exact .inr ⟨left, hleft, hlead⟩
  · rintro (rfl | ⟨left, hleft, hlead⟩)
    · exact ⟨models, .inl ⟨rfl, rfl⟩, leadsToCycle_of_no_sink hwaiting hb⟩
    · exact ⟨left, .inr hleft, hlead⟩

theorem GivesUp.mem (hgives : GivesUp models a b) : b ∈ models := by
  obtain ⟨left, hleft, hlead⟩ := hgives
  exact (sublist_of_cycleBreaks hleft).subset hlead.mem

/-! ## The whole ordering -/

/-- A model comes before one that it needs exactly when it gives it up, and a model that breaks a
cycle comes before all that it gives up, whether it needs them or not. -/
theorem pair_sublist_ordered_iff (h : Distinct models) (ha : a ∈ models) (hb : b ∈ models)
    (hne : a ≠ b) (hab : Needs models a b ∨ BreaksCycle models a) :
    [a, b].Sublist (ordered models) ↔ GivesUp models a b := by
  -- along the run: nothing is needed by a sink, and the first of a cycle gives up all that is left
  fun_induction ordered models with
  | case1 models hnext =>
    cases next?_eq_none hnext
    exact absurd ha List.not_mem_nil
  | case2 models e hnext ih =>
    obtain ⟨hmem, hcase⟩ := next?_cases h hnext
    have hlast : e ∉ ordered (others models e) := fun he =>
      (mem_others.1 ((mem_ordered (h.others e)).1 he)).2 rfl
    have hstep : a ≠ e → b ≠ e →
        ([a, b].Sublist (ordered (others models e)) ↔ GivesUp (others models e) a b) := by
      intro hae hbe
      have hname {x : ModelEntry} (hx : x ∈ models) (hxe : x ≠ e) : x.name ≠ e.name :=
        fun heq => hxe (h.eq_of_name hx hmem heq)
      refine ih (h.others e) (mem_others.2 ⟨ha, hname ha hae⟩) (mem_others.2 ⟨hb, hname hb hbe⟩) ?_
      rcases hab with hab | hbreaks
      · exact .inl (needs_others_iff.2 ⟨hab, hname ha hae, hname hb hbe⟩)
      · refine .inr ?_
        rcases hcase with hsink | ⟨-, hfirst⟩
        · exact (breaksCycle_others_iff h hsink hmem).1 hbreaks
        · exact ((breaksCycle_first_iff h hfirst).1 hbreaks).resolve_left hae
    rw [pair_sublist_cons]
    -- where `b` is taken, nothing that is left comes before it
    by_cases hbe : b = e
    · subst hbe
      have hnot : ¬ GivesUp models a b := by
        rcases hcase with hsink | ⟨hwaiting, hfirst⟩
        · exact hsink.not_givesUp
        · rw [givesUp_first_iff h hwaiting hfirst hmem]
          rintro (rfl | hgives)
          · exact hne rfl
          · exact (mem_others.1 hgives.mem).2 rfl
      refine iff_of_false ?_ hnot
      rintro (hsub | ⟨rfl, -⟩)
      · exact hlast (hsub.subset (List.mem_cons_of_mem _ List.mem_cons_self))
      · exact hne rfl
    · rcases hcase with hsink | ⟨hwaiting, hfirst⟩
      · have hae : a ≠ e := by
          rintro rfl
          exact hab.elim (hsink b) (hsink.not_breaksCycle h)
        rw [hstep hae hbe, ← givesUp_others_iff h hsink hmem]
        simp [hae]
      · rw [givesUp_first_iff h hwaiting hfirst hb]
        by_cases hae : a = e
        · have hb : b ∈ ordered (others models e) :=
            (mem_ordered (h.others e)).2
              (mem_others.2 ⟨hb, fun heq => hbe (h.eq_of_name hb hmem heq)⟩)
          exact iff_of_true (.inr ⟨hae, hb⟩) (.inl hae)
        · rw [hstep hae hbe]
          simp [hae]

end TypedClient.ModelEntry
