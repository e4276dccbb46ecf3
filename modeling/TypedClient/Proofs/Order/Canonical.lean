import TypedClient.Proofs.Order.Declarations

/-!
# The canonical order

Where dependencies form no cycle, models can be put in an order in which each of them follows those
that it needs, and in general in many such orders. The declarations come in the first one of these:
wherever another order differs from it for the first time, that order has a model of a later place in
the document. For any such order starts with a sink, and the first sink of the document is taken.
-/

open Relation

namespace TypedClient

namespace ModelEntry

variable {models order rest : List ModelEntry} {a b e s : ModelEntry}

/-- An order of the models in which each one follows those that it needs. -/
structure Admissible (models order : List ModelEntry) : Prop where
  perm : order.Perm models
  follows : ∀ a b, Needs models a b → [b, a].Sublist order

theorem Admissible.distinct (horder : Admissible models order) (h : Distinct models) :
    Distinct order :=
  (horder.perm.map name).nodup_iff.2 h

/-- What comes first needs no other model. -/
theorem Admissible.sink (horder : Admissible models (s :: rest)) (h : Distinct models) :
    Sink models s := by
  intro b hsb
  have hnew : s ∉ rest := (List.nodup_cons.1 (horder.distinct h).nodup).1
  rcases pair_sublist_cons.1 (horder.follows s b hsb) with hpair | ⟨-, hs⟩
  · exact hnew (hpair.subset (List.mem_cons_of_mem _ List.mem_cons_self))
  · exact hnew hs

/-- What comes after the first model is an order of the others. -/
theorem Admissible.tail (horder : Admissible models (s :: rest)) (h : Distinct models) :
    Admissible (others models s) rest := by
  have hname : ∀ a ∈ rest, a.name ≠ s.name := by
    intro a ha heq
    exact (List.nodup_cons.1 (horder.distinct h)).1 (List.mem_map.2 ⟨a, ha, heq⟩)
  refine ⟨?_, fun a b hab => ?_⟩
  · have hrest : others (s :: rest) s = rest := by simpa [others] using hname
    have hperm : (others (s :: rest) s).Perm (others models s) := horder.perm.filter _
    rwa [hrest] at hperm
  · obtain ⟨hab, -, hb⟩ := needs_others_iff.1 hab
    exact (pair_sublist_cons.1 (horder.follows a b hab)).resolve_right fun hbs =>
      hb (congrArg name hbs.1)

/-! ## Without cycles -/

/-- Without cycles some model never waits, so that no cycle is ever broken. -/
theorem first_sink_of_acyclic (h : Distinct models)
    (hacyclic : ∀ a, ¬ TransGen (Needs models) a a) (hnext : next? models = some e) :
    First (Sink models) models e := by
  rcases (next?_eq_some_iff h).1 hnext with hfirst | ⟨-, hcycle, -⟩
  · exact hfirst
  · exact absurd hcycle (hacyclic e)

theorem not_givesUp_of_acyclic (hacyclic : ∀ a, ¬ TransGen (Needs models) a a) :
    ¬ GivesUp models a b := by
  rintro ⟨left, hleft, c, -, hc⟩
  exact hacyclic c (transGen_mono (sublist_of_cycleBreaks hleft).subset hc)

theorem admissible_ordered (h : Distinct models) (hacyclic : ∀ a, ¬ TransGen (Needs models) a a) :
    Admissible models (ordered models) := by
  refine ⟨perm_ordered h, fun a b hab => ?_⟩
  have hne : a ≠ b := fun heq => hab.2.2.2 (congrArg name heq).symm
  have hnot : ¬ [a, b].Sublist (ordered models) := by
    rw [pair_sublist_ordered_iff h hab.1 hab.2.1 hne (.inl hab)]
    exact not_givesUp_of_acyclic hacyclic
  exact (pair_sublist_or ((mem_ordered h).2 hab.1) ((mem_ordered h).2 hab.2.1) hne).resolve_left hnot

/-- Of two orders that differ, the one that is made comes first lexicographically, for any way to
compare models that has them as they are listed. -/
theorem eq_or_lex_ordered {R : ModelEntry → ModelEntry → Prop} (h : Distinct models)
    (hacyclic : ∀ a, ¬ TransGen (Needs models) a a) (hR : models.Pairwise R)
    (horder : Admissible models order) :
    order = ordered models ∨ List.Lex R (ordered models) order := by
  -- along the run: both orders start with the same model, or the run with an earlier one
  fun_induction ordered models generalizing order with
  | case1 models hnext =>
    have hnil := horder.perm
    rw [next?_eq_none hnext] at hnil
    exact .inl hnil.eq_nil
  | case2 models e hnext ih =>
    cases order with
    | nil =>
      have hmem := horder.perm.mem_iff.2 (mem_of_next? hnext)
      exact absurd hmem List.not_mem_nil
    | cons s rest =>
      by_cases hse : s = e
      · subst hse
        have hacyclic' : ∀ a, ¬ TransGen (Needs (others models s)) a a := by
          intro a ha
          exact hacyclic a (transGen_mono (others_subset models s) ha)
        rcases ih (h.others s) hacyclic' (hR.filter _) (horder.tail h) with hrest | hlex
        · exact .inl (congrArg (s :: ·) hrest)
        · exact .inr (.cons hlex)
      · -- the other order starts with a sink too, and the first of the sinks has been taken
        have hfirst := first_sink_of_acyclic h hacyclic hnext
        have hs : s ∈ models := horder.perm.subset List.mem_cons_self
        have hpair := hfirst.pair_sublist hs (horder.sink h) hse
        exact .inr (.rel (List.pairwise_iff_forall_sublist.1 hR hpair))

end ModelEntry

namespace TypeTable

variable {t : TypeTable} {a b : ModelEntry}

/-- `a` has a place before that of `b` in the table. -/
def Earlier (t : TypeTable) (a b : ModelEntry) : Prop :=
  ∃ i j, t.position? a.name = some i ∧ t.position? b.name = some j ∧ i < j

theorem exists_idxOf?_lt {x y : String} {l : List String} (h : l.Nodup) (hxy : [x, y].Sublist l) :
    ∃ i j, l.idxOf? x = some i ∧ l.idxOf? y = some j ∧ i < j := by
  induction l with
  | nil => exact absurd (hxy.subset List.mem_cons_self) List.not_mem_nil
  | cons w l ih =>
    obtain ⟨hw, hl⟩ := List.nodup_cons.1 h
    simp only [List.idxOf?_cons]
    rcases ModelEntry.pair_sublist_cons.1 hxy with hxy | ⟨rfl, hy⟩
    · obtain ⟨i, j, hi, hj, hij⟩ := ih hl hxy
      have hx : w ≠ x := fun heq => hw (heq ▸ hxy.subset List.mem_cons_self)
      have hy : w ≠ y := fun heq => hw (heq ▸ hxy.subset (List.mem_cons_of_mem _ List.mem_cons_self))
      exact ⟨i + 1, j + 1, by simp [hx, hi], by simp [hy, hj], by omega⟩
    · have hxy : x ≠ y := fun heq => hw (heq ▸ hy)
      obtain ⟨j, hj⟩ := Option.isSome_iff_exists.1 (List.isSome_idxOf?.2 hy)
      exact ⟨0, j + 1, by simp, by simp [hxy, hj], by omega⟩

theorem earlier_of_sublist (h : [a, b].Sublist t.models.values) : t.Earlier a b := by
  have hnames := h.map (·.name)
  rw [map_name_values] at hnames
  exact exists_idxOf?_lt t.models.distinct hnames

theorem pairwise_earlier (t : TypeTable) : t.models.values.Pairwise t.Earlier :=
  List.pairwise_iff_forall_sublist.2 earlier_of_sublist

/-- A rank that goes down wherever a model needs another one rules out cycles. -/
theorem not_dependsOn_self_of_rank (rank : String → Nat)
    (h : ∀ a ∈ t.models.values, ∀ b ∈ t.models.values, b.name ∈ a.dependencies → b.name ≠ a.name →
      rank b.name < rank a.name) (a : ModelEntry) : ¬ t.DependsOn a a := by
  have hstep {a b : ModelEntry} (hab : ModelEntry.Needs t.models.values a b) :
      rank b.name < rank a.name := h a hab.1 b hab.2.1 hab.2.2.1 hab.2.2.2
  have hway {b : ModelEntry} (hab : t.DependsOn a b) : rank b.name < rank a.name := by
    induction hab with
    | single hab => exact hstep hab
    | tail _ hbc ih => exact (hstep hbc).trans ih
  intro hcycle
  exact absurd (hway hcycle) (Nat.lt_irrefl _)

/-- Without cycles, references of a model to itself aside, the models are declared in the
lexicographically least of all orders in which each one follows those that it needs. -/
theorem declarations_least (t : TypeTable) (hacyclic : ∀ a, ¬ t.DependsOn a a) :
    ∃ order, t.declarations = order.map (·.declare t.models.values) ∧
      ModelEntry.Admissible t.models.values order ∧
      ∀ other, ModelEntry.Admissible t.models.values other →
        other = order ∨ List.Lex t.Earlier order other := by
  have hdistinct := t.distinct_models
  refine ⟨ModelEntry.ordered t.models.values, rfl, ModelEntry.admissible_ordered hdistinct hacyclic, ?_⟩
  intro other hother
  exact ModelEntry.eq_or_lex_ordered hdistinct hacyclic t.pairwise_earlier hother

/-- A cake needs dough and cream; dough needs flour, and some dough left over. -/
def bakery : TypeTable :=
  .ofModels [holder "Cake" ["Dough", "Cream"], holder "Dough" ["Dough", "Flour"],
    holder "Cream" [], holder "Flour" []] ∅

theorem bakery_acyclic (a : ModelEntry) : ¬ bakery.DependsOn a a := by
  refine not_dependsOn_self_of_rank (["Flour", "Dough", "Cream", "Cake"].idxOf ·) ?_ a
  decide +kernel

/-- Both the cream and the flour could come first, and the cream has the earlier place. -/
theorem bakery_declared : (∀ a, ¬ bakery.DependsOn a a) ∧
    bakery.declarations.map (·.name) = ["Cream", "Flour", "Dough", "Cake"] ∧
    ∃ order, bakery.declarations = order.map (·.declare bakery.models.values) ∧
      ModelEntry.Admissible bakery.models.values order ∧
      ∀ other, ModelEntry.Admissible bakery.models.values other →
        other = order ∨ List.Lex bakery.Earlier order other :=
  ⟨bakery_acyclic, by decide +kernel, declarations_least bakery bakery_acyclic⟩

end TypeTable

end TypedClient
