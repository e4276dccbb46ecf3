import Mathlib.Data.List.Nodup
import TypedClient.Proofs.Order.Dependency

/-!
# The model that comes next

An order is looked at by its pairs: one model comes before another one if the two of them are a
sublist. The model that comes next is the first sink of those that are left, and where all of them
wait the first one on a cycle; nothing else is ever taken. In the end each model has been taken once.
-/

open Relation

namespace TypedClient.ModelEntry

variable {models : List ModelEntry} {a e : ModelEntry}

/-! ## Pairs in a list -/

section Pairs

variable {α : Type} {x y z : α} {l : List α}

theorem pair_sublist_cons {w : α} : [x, y].Sublist (w :: l) ↔ [x, y].Sublist l ∨ x = w ∧ y ∈ l := by
  rw [List.cons_sublist_cons', List.singleton_sublist]

theorem pair_sublist_or (hx : x ∈ l) (hy : y ∈ l) (hxy : x ≠ y) :
    [x, y].Sublist l ∨ [y, x].Sublist l := by
  induction l with
  | nil => exact absurd hx List.not_mem_nil
  | cons w l ih =>
    simp only [pair_sublist_cons]
    rcases List.mem_cons.1 hx with hxw | hxl
    · have hyl : y ∈ l := (List.mem_cons.1 hy).resolve_left fun hyw => hxy (hxw.trans hyw.symm)
      exact .inl (.inr ⟨hxw, hyl⟩)
    · rcases List.mem_cons.1 hy with hyw | hyl
      · exact .inr (.inr ⟨hyw, hxl⟩)
      · exact (ih hxl hyl).imp .inl .inl

theorem pair_sublist_trans (h : l.Nodup) (hxy : [x, y].Sublist l) (hyz : [y, z].Sublist l) :
    [x, z].Sublist l := by
  induction l with
  | nil => exact absurd (hxy.subset List.mem_cons_self) List.not_mem_nil
  | cons w l ih =>
    obtain ⟨hw, hl⟩ := List.nodup_cons.1 h
    have hy : y ∈ l := by
      rcases pair_sublist_cons.1 hxy with hxy | ⟨-, hy⟩
      · exact hxy.subset (List.mem_cons_of_mem _ List.mem_cons_self)
      · exact hy
    have hyz : [y, z].Sublist l := (pair_sublist_cons.1 hyz).resolve_right fun hyw => hw (hyw.1 ▸ hy)
    rcases pair_sublist_cons.1 hxy with hxy | ⟨hxw, -⟩
    · exact pair_sublist_cons.2 (.inl (ih hl hxy hyz))
    · have hz : z ∈ l := hyz.subset (List.mem_cons_of_mem _ List.mem_cons_self)
      exact pair_sublist_cons.2 (.inr ⟨hxw, hz⟩)

theorem pair_sublist_asymm (h : l.Nodup) (hxy : [x, y].Sublist l) : ¬ [y, x].Sublist l :=
  fun hyx => List.nodup_iff_sublist.1 h x (pair_sublist_trans h hxy hyx)

end Pairs

/-! ## The first of a list -/

section First

variable {α : Type} {p q : α → Prop} {l : List α} {x y : α}

/-- `x` is the first of the list that has the property. -/
def First (p : α → Prop) (l : List α) (x : α) : Prop :=
  p x ∧ ∃ before after, l = before ++ x :: after ∧ ∀ y ∈ before, ¬ p y

theorem find?_eq_some_iff_first {test : α → Bool} :
    l.find? test = some x ↔ First (test · = true) l x := by
  simp [List.find?_eq_some_iff_append, First]

theorem exists_first (h : ∃ x ∈ l, p x) : ∃ x, First p l x := by
  induction l with
  | nil =>
    obtain ⟨x, hx, -⟩ := h
    exact absurd hx List.not_mem_nil
  | cons w l ih =>
    by_cases hw : p w
    · exact ⟨w, hw, [], l, rfl, nofun⟩
    · obtain ⟨x, hx, hpx⟩ := h
      have hxl : x ∈ l := (List.mem_cons.1 hx).resolve_left fun hxw => hw (hxw ▸ hpx)
      obtain ⟨y, hy, before, after, rfl, hbefore⟩ := ih ⟨x, hxl, hpx⟩
      exact ⟨y, hy, w :: before, after, rfl, List.forall_mem_cons.2 ⟨hw, hbefore⟩⟩

namespace First

theorem mem (h : First p l x) : x ∈ l := by
  obtain ⟨-, before, after, rfl, -⟩ := h
  exact List.mem_append_right _ List.mem_cons_self

theorem congr (h : First p l x) (hpq : ∀ y ∈ l, (p y ↔ q y)) : First q l x := by
  obtain ⟨hx, before, after, hl, hbefore⟩ := id h
  refine ⟨(hpq x h.mem).1 hx, before, after, hl, fun y hy hqy => hbefore y hy ?_⟩
  exact (hpq y (hl ▸ List.mem_append_left _ hy)).2 hqy

/-- What else has the property comes later. -/
theorem pair_sublist (h : First p l x) (hy : y ∈ l) (hpy : p y) (hne : y ≠ x) :
    [x, y].Sublist l := by
  obtain ⟨-, before, after, rfl, hbefore⟩ := h
  have hafter : y ∈ after := by
    rcases List.mem_append.1 hy with hy | hy
    · exact absurd hpy (hbefore y hy)
    · exact (List.mem_cons.1 hy).resolve_left hne
  exact (pair_sublist_cons.2 (.inr ⟨rfl, hafter⟩)).trans (List.sublist_append_right _ _)

/-- The first of a list is the first of any part that it is kept in. -/
theorem filter {keep : α → Bool} (h : First p l x) (hx : keep x = true) :
    First p (l.filter keep) x := by
  obtain ⟨hpx, before, after, rfl, hbefore⟩ := h
  refine ⟨hpx, before.filter keep, after.filter keep, ?_, ?_⟩
  · rw [List.filter_append, List.filter_cons_of_pos hx]
  · intro y hy
    exact hbefore y (List.mem_of_mem_filter hy)

end First

end First

/-! ## One step of the ordering -/

theorem next?_eq_none (hnext : next? models = none) : models = [] := by
  unfold next? at hnext
  exact List.head?_eq_none_iff.1 (Option.or_eq_none_iff.1 hnext).2

/-- The model that comes next is the first sink, or there is none and it is the first one on a cycle. -/
theorem next?_eq_some_iff (h : Distinct models) : next? models = some e ↔
    First (Sink models) models e ∨
      (∀ x ∈ models, ¬ Sink models x) ∧ First (fun x => TransGen (Needs models) x x) models e := by
  have hready : models.find? (fun x => (x.waitsFor models).isEmpty) = some e ↔
      First (Sink models) models e := by
    rw [find?_eq_some_iff_first]
    exact ⟨fun hfirst => hfirst.congr fun x hx => isEmpty_waitsFor hx,
      fun hfirst => hfirst.congr fun x hx => (isEmpty_waitsFor hx).symm⟩
  have hcycle : models.find? (onCycle models) = some e ↔
      First (fun x => TransGen (Needs models) x x) models e := by
    rw [find?_eq_some_iff_first]
    exact ⟨fun hfirst => hfirst.congr fun x hx => onCycle_iff h hx,
      fun hfirst => hfirst.congr fun x hx => (onCycle_iff h hx).symm⟩
  have hwaiting : models.find? (fun x => (x.waitsFor models).isEmpty) = none ↔
      ∀ x ∈ models, ¬ Sink models x := by
    rw [List.find?_eq_none]
    exact forall₂_congr fun x hx => not_congr (isEmpty_waitsFor hx)
  rw [next?, Option.or_eq_some_iff, Option.or_eq_some_iff, Option.or_eq_none_iff, hready, hcycle,
    hwaiting]
  constructor
  · rintro (hfirst | ⟨⟨hwait, hnone⟩, hhead⟩)
    · exact hfirst
    · -- a model of the list leads to a cycle, so that the search for one finds a model
      obtain ⟨c, -, hc⟩ := leadsToCycle_of_no_sink hwait (List.mem_of_mem_head? hhead)
      obtain ⟨x, hcx, -⟩ := TransGen.head'_iff.1 hc
      exact absurd ((onCycle_iff h hcx.1).2 hc) (List.find?_eq_none.1 hnone c hcx.1)
  · exact .inl

/-! ## The whole ordering -/

theorem ordered_of_next? (hnext : next? models = some e) :
    ordered models = e :: ordered (others models e) := by
  rw [ordered]
  split
  · rename_i hnone
    cases hnext.symm.trans hnone
  · rename_i x hx
    cases hnext.symm.trans hx
    rfl

theorem mem_ordered (h : Distinct models) : a ∈ ordered models ↔ a ∈ models := by
  fun_induction ordered models with
  | case1 models hnext => rw [next?_eq_none hnext]
  | case2 models e hnext ih =>
    rw [List.mem_cons, ih (h.others e), mem_others]
    constructor
    · rintro (rfl | ⟨ha, -⟩)
      · exact mem_of_next? hnext
      · exact ha
    · intro ha
      by_cases hae : a.name = e.name
      · exact .inl (h.eq_of_name ha (mem_of_next? hnext) hae)
      · exact .inr ⟨ha, hae⟩

theorem Distinct.ordered (h : Distinct models) : Distinct (ordered models) := by
  fun_induction ModelEntry.ordered models with
  | case1 => exact List.nodup_nil
  | case2 models e hnext ih =>
    refine List.nodup_cons.2 ⟨fun he => ?_, ih (h.others e)⟩
    obtain ⟨x, hx, hxe⟩ := List.mem_map.1 he
    exact (mem_others.1 ((mem_ordered (h.others e)).1 hx)).2 hxe

theorem Distinct.nodup (h : Distinct models) : models.Nodup := List.Nodup.of_map _ h

/-- Ordering loses no model and repeats none. -/
theorem perm_ordered (h : Distinct models) : (ordered models).Perm models :=
  (List.perm_ext_iff_of_nodup h.ordered.nodup h.nodup).2 fun _ => mem_ordered h

end TypedClient.ModelEntry
