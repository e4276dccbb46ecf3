import Mathlib.Data.List.Forall2
import TypedClient.Proofs.Run

/-!
# Runs in lockstep

Two computations run in lockstep when from related states they end alike: both in a value, and then
values and states are related again, or both in an error. As for a single run there is one rule for each
way to put computations together.
-/

namespace TypedClient

variable {ε δ σ τ α β α' β' : Type}

/-- From states related by `S`, `x` and `y` both end in values related by `R` and in states related by
`S`, or both in errors related by `E`. -/
def Lockstep (S : σ → τ → Prop) (E : ε → δ → Prop) (R : α → β → Prop)
    (x : ExceptT ε (StateM σ) α) (y : ExceptT δ (StateM τ) β) : Prop :=
  ∀ s s', S s s' →
    wp x s (fun a t => wp y s' (fun b t' => R a b ∧ S t t') fun _ _ => False)
      fun e _ => wp y s' (fun _ _ => False) fun e' _ => E e e'

variable {S : σ → τ → Prop} {E : ε → δ → Prop} {R : α → β → Prop} {R' : α' → β' → Prop}
  {x : ExceptT ε (StateM σ) α} {y : ExceptT δ (StateM τ) β}

namespace Lockstep

/-! ## Rules -/

protected theorem pure {a : α} {b : β} (h : R a b) : Lockstep S E R (pure a) (pure b) :=
  fun _ _ hs => ⟨h, hs⟩

protected theorem throw {e : ε} {e' : δ} (h : E e e') : Lockstep S E R (throw e) (throw e') :=
  fun _ _ _ => h

protected theorem modify {f : σ → σ} {g : τ → τ} (h : ∀ s s', S s s' → S (f s) (g s')) :
    Lockstep S E (fun _ _ => True) (modify f) (modify g) :=
  fun s s' hs => ⟨trivial, h s s' hs⟩

/-- A computation that goes on with the state as it is. -/
protected theorem get {f : σ → ExceptT ε (StateM σ) α'} {g : τ → ExceptT δ (StateM τ) β'}
    (h : ∀ s s', S s s' → Lockstep S E R' (f s) (g s')) :
    Lockstep S E R' (get >>= f) (get >>= g) :=
  fun s s' hs => h s s' hs s s' hs

protected theorem bind {f : α → ExceptT ε (StateM σ) α'} {g : β → ExceptT δ (StateM τ) β'}
    (h : Lockstep S E R x y) (hnext : ∀ a b, R a b → Lockstep S E R' (f a) (g b)) :
    Lockstep S E R' (x >>= f) (y >>= g) := by
  intro s s' hs
  have hfirst := h s s' hs
  simp only [wp_bind]
  unfold wp at hfirst ⊢
  revert hfirst
  -- the runs of `x` and `y` end alike
  rcases x.run s with ⟨e | a, t⟩ <;> rcases y.run s' with ⟨e' | b, t'⟩
  · exact id
  · exact False.elim
  · exact False.elim
  · exact fun hfirst => hnext a b hfirst.1 t t' hfirst.2

protected theorem map {f : α → α'} {g : β → β'} (h : Lockstep S E R x y)
    (hfg : ∀ a b, R a b → R' (f a) (g b)) : Lockstep S E R' (f <$> x) (g <$> y) := by
  rw [← bind_pure_comp, ← bind_pure_comp]
  exact h.bind fun a b hab => .pure (hfg a b hab)

protected theorem adapt {ε' δ' : Type} {E' : ε' → δ' → Prop} {f : ε → ε'} {g : δ → δ'}
    (h : Lockstep S E R x y) (hfg : ∀ e e', E e e' → E' (f e) (g e')) :
    Lockstep S E' R (x.adapt f) (y.adapt g) := by
  intro s s' hs
  simp only [wp_adapt]
  refine (h s s' hs).mono (fun _ _ hy => hy) fun e _ hy => hy.mono (fun _ _ hb => hb) ?_
  exact fun e' _ he => hfg e e' he

/-! ## Loops -/

variable {xs : List α} {ys : List β}

protected theorem forM {f : α → ExceptT ε (StateM σ) PUnit} {g : β → ExceptT δ (StateM τ) PUnit}
    (hitems : List.Forall₂ R xs ys)
    (hstep : ∀ a b, R a b → Lockstep S E (fun _ _ => True) (f a) (g b)) :
    Lockstep S E (fun _ _ => True) (xs.forM f) (ys.forM g) := by
  induction hitems with
  | nil => exact .pure trivial
  | cons hab _ ih => exact (hstep _ _ hab).bind fun _ _ _ => ih

protected theorem mapM {f : α → ExceptT ε (StateM σ) α'} {g : β → ExceptT δ (StateM τ) β'}
    (hitems : List.Forall₂ R xs ys) (hstep : ∀ a b, R a b → Lockstep S E R' (f a) (g b)) :
    Lockstep S E (List.Forall₂ R') (xs.mapM f) (ys.mapM g) := by
  induction hitems with
  | nil => exact .pure .nil
  | cons hab _ ih =>
    rw [List.mapM_cons, List.mapM_cons]
    exact (hstep _ _ hab).bind fun a b hfirst => ih.bind fun _ _ hrest => .pure (.cons hfirst hrest)

/-! ## Ends -/

/-- Where one run ends in a value, so does the other. -/
theorem of_ok {a : α} {s t : σ} {s' : τ} (h : Lockstep S E R x y) (hs : S s s')
    (hrun : x.run s = (.ok a, t)) : ∃ b t', y.run s' = (.ok b, t') ∧ R a b ∧ S t t' := by
  have hend := (h s s' hs).of_ok hrun
  unfold wp at hend
  split at hend
  · exact ⟨_, _, ‹_›, hend⟩
  · exact hend.elim

theorem of_error {e : ε} {s t : σ} {s' : τ} (h : Lockstep S E R x y) (hs : S s s')
    (hrun : x.run s = (.error e, t)) : ∃ e' t', y.run s' = (.error e', t') ∧ E e e' := by
  have hend := (h s s' hs).of_error hrun
  unfold wp at hend
  split at hend
  · exact hend.elim
  · exact ⟨_, _, ‹_›, hend⟩

end Lockstep

end TypedClient
