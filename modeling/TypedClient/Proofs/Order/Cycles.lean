import TypedClient.Proofs.Order.Declarations

/-!
# How cycles are detected

Whether a model is on a cycle is asked while some models have come out. The search for the answer comes
to an end, and it finds exactly the ways back to the model that avoid those. Where all models that are
left wait for another one, one of them is on a cycle: no model ever has to come out for want of a better
one.
-/

open Relation

namespace TypedClient.ModelEntry

open TypeTable (holder)

variable {models left : List ModelEntry} {a b e start : ModelEntry} {out : ModelEntry → Bool}

/-- The models that have not come out. -/
def remaining (models : List ModelEntry) (out : ModelEntry → Bool) : List ModelEntry :=
  models.filter fun e => !out e

theorem mem_remaining : e ∈ remaining models out ↔ e ∈ models ∧ out e = false := by
  simp [remaining]

theorem Distinct.remaining (h : Distinct models) (out : ModelEntry → Bool) :
    Distinct (ModelEntry.remaining models out) :=
  h.sublist (List.filter_sublist.map _)

theorem needs_remaining_iff :
    Needs (remaining models out) a b ↔ Needs models a b ∧ out a = false ∧ out b = false := by
  simp only [Needs, mem_remaining]
  tauto

/-! ## Ways -/

/-- A way among the models that are left is one through models that have not come out. -/
theorem transGen_needs_iff (ha : out a = false) (hb : out b = false) :
    TransGen (Needs (remaining models out)) a b ↔
      ∃ way, (∀ e ∈ way, out e = false) ∧ (a :: way ++ [b]).IsChain (Needs models) := by
  constructor
  · intro h
    clear ha
    induction h using TransGen.head_induction_on with
    | single hab => exact ⟨[], nofun, .cons_cons (needs_remaining_iff.1 hab).1 (.singleton b)⟩
    | @head a c hac _ ih =>
      obtain ⟨way, hout, hchain⟩ := ih
      obtain ⟨hac, -, hc⟩ := needs_remaining_iff.1 hac
      exact ⟨c :: way, List.forall_mem_cons.2 ⟨hc, hout⟩, .cons_cons hac hchain⟩
  · rintro ⟨way, hout, hchain⟩
    induction way generalizing a with
    | nil =>
      obtain ⟨hab, -⟩ := List.isChain_cons_cons.1 hchain
      exact .single (needs_remaining_iff.2 ⟨hab, ha, hb⟩)
    | cons c way ih =>
      obtain ⟨hc, hout⟩ := List.forall_mem_cons.1 hout
      obtain ⟨hac, hchain⟩ := List.isChain_cons_cons.1 hchain
      exact .head (needs_remaining_iff.2 ⟨hac, ha, hc⟩) (ih hc hout hchain)

theorem onCycle_remaining_iff (h : Distinct models) (hstart : start ∈ remaining models out) :
    onCycle (remaining models out) start = true ↔
      ∃ way, (∀ e ∈ way, out e = false) ∧ (start :: way ++ [start]).IsChain (Needs models) := by
  have hout := (mem_remaining.1 hstart).2
  rw [onCycle_iff (h.remaining out) hstart, transGen_needs_iff hout hout]

/-! ## All models wait -/

/-- Where each model needs another one, some model is on a cycle. -/
theorem exists_onCycle (h : Distinct left) (hleft : left ≠ [])
    (hneeds : ∀ a ∈ left, ∃ b ∈ left, Needs left a b) : ∃ e ∈ left, onCycle left e = true := by
  have hwaiting : ∀ a ∈ left, ¬ Sink left a := by
    intro a ha hsink
    obtain ⟨b, -, hab⟩ := hneeds a ha
    exact hsink b hab
  obtain ⟨a, ha⟩ := List.exists_mem_of_ne_nil left hleft
  obtain ⟨c, -, hc⟩ := leadsToCycle_of_no_sink hwaiting ha
  obtain ⟨b, hcb, -⟩ := TransGen.head'_iff.1 hc
  exact ⟨c, hcb.1, (onCycle_iff h hcb.1).2 hc⟩

/-- Of models that are left one waits for no other, or one is on a cycle. -/
theorem exists_find?_onCycle (h : Distinct left) (hleft : left ≠ [])
    (hwait : left.find? (fun e => (e.waitsFor left).isEmpty) = none) :
    ∃ e, left.find? (onCycle left) = some e ∧ next? left = some e := by
  have hneeds : ∀ a ∈ left, ∃ b ∈ left, Needs left a b := by
    intro a ha
    have hsink := mt (isEmpty_waitsFor ha).2 (List.find?_eq_none.1 hwait a ha)
    obtain ⟨b, hab⟩ := not_forall_not.1 hsink
    exact ⟨b, hab.2.1, hab⟩
  obtain ⟨e, he⟩ := Option.isSome_iff_exists.1 (List.find?_isSome.2 (exists_onCycle h hleft hneeds))
  refine ⟨e, he, ?_⟩
  rw [next?, hwait, he]
  rfl

/-- Whatever has come out, the search for a cycle through a model that is left ends, and it finds one
exactly if there is a way back to the model through models that have not come out either. Where all
models that are left need another one of them, it finds a cycle for one of them. So what comes out next is
always a model that waits for no other or one that is on a cycle. -/
theorem cycles_detected (h : Distinct models) (out : ModelEntry → Bool) :
    let left := remaining models out
    (∀ start ∈ left,
      (∃ n ≤ (dependenciesOf left start.name).length
          + ((left.map (·.name)).flatMap (dependenciesOf left)).length,
        SearchRun (dependenciesOf left) start.name (left.map (·.name))
          (dependenciesOf left start.name) n (onCycle left start)) ∧
      (onCycle left start = true ↔
        ∃ way, (∀ e ∈ way, out e = false) ∧ (start :: way ++ [start]).IsChain (Needs models))) ∧
    (left ≠ [] → (∀ a ∈ left, ∃ b ∈ left, Needs models a b) → ∃ e ∈ left, onCycle left e = true) ∧
    (left ≠ [] → left.find? (fun e => (e.waitsFor left).isEmpty) = none →
      ∃ e, left.find? (onCycle left) = some e ∧ next? left = some e) := by
  intro left
  have hdistinct := h.remaining out
  refine ⟨fun start hstart => ⟨exists_searchRun _ _ _ _, onCycle_remaining_iff h hstart⟩,
    fun hleft hneeds => exists_onCycle hdistinct hleft fun a ha => ?_,
    fun hleft hwait => exists_find?_onCycle hdistinct hleft hwait⟩
  obtain ⟨b, hb, hab⟩ := hneeds a ha
  exact ⟨b, hb, needs_remaining_iff.2 ⟨hab, (mem_remaining.1 ha).2, (mem_remaining.1 hb).2⟩⟩

/-- A shop needs its clerk and its owner, and the clerk the shop; owner and pet need each other. -/
def market : List ModelEntry :=
  [holder "Shop" ["Clerk", "Owner"], holder "Clerk" ["Shop"], holder "Owner" ["Pet"],
    holder "Pet" ["Owner"]]

/-- Without the clerk the shop is on no cycle, so that the owner comes out before it. -/
theorem owner_before_market_shop :
    let left := remaining market (·.name == "Clerk")
    Distinct market ∧ holder "Owner" ["Pet"] ∈ left ∧ left ≠ [] ∧
      (∀ a ∈ left, ∃ b ∈ left, Needs market a b) ∧
      left.find? (fun e => (e.waitsFor left).isEmpty) = none ∧
      onCycle left (holder "Owner" ["Pet"]) = true ∧
      onCycle left (holder "Shop" ["Clerk", "Owner"]) = false ∧
      next? left = some (holder "Owner" ["Pet"]) := by
  intro left
  have hdistinct : Distinct market := by
    rw [Distinct]
    decide
  have howner : holder "Owner" ["Pet"] ∈ left := by decide
  have hneeds : ∀ a ∈ left, ∃ b ∈ left, Needs market a b := by decide +kernel
  have hwait : left.find? (fun e => (e.waitsFor left).isEmpty) = none := by decide +kernel
  have hleft : left ≠ [] := List.ne_nil_of_mem howner
  obtain ⟨hsearch, -, hnext⟩ := cycles_detected hdistinct (·.name == "Clerk")
  obtain ⟨e, hcycle, he⟩ := hnext hleft hwait
  have hfirst : left.find? (onCycle left) = some (holder "Owner" ["Pet"]) := by decide +kernel
  rw [hfirst] at hcycle
  cases hcycle
  refine ⟨hdistinct, howner, hleft, hneeds, hwait, ?_, by decide +kernel, he⟩
  refine (hsearch _ howner).2.2 ⟨[holder "Pet" ["Owner"]], by decide, ?_⟩
  exact .cons_cons (by decide) (.cons_cons (by decide) (.singleton _))

end TypedClient.ModelEntry
