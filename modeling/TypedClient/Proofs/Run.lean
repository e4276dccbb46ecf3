/-!
# Runs

Conversion and resolution are computations that change a state and may stop with an error, after
which the state is kept. `wp` says how such a run ends. One rule for each way to put computations
together leads from the parts to the whole; a loop has an invariant.
-/

namespace TypedClient

variable {ε σ α β : Type}

/-- The run of `x` from `s` ends in a value and a state for which `ok` holds, or in an error and a
state for which `err` holds. -/
def wp (x : ExceptT ε (StateM σ) α) (s : σ) (ok : α → σ → Prop) (err : ε → σ → Prop) : Prop :=
  match x.run s with
  | (.ok a, s')    => ok a s'
  | (.error e, s') => err e s'

variable {x : ExceptT ε (StateM σ) α} {s : σ} {ok ok' : α → σ → Prop} {err err' : ε → σ → Prop}

theorem wp.mono (h : wp x s ok err) (hok : ∀ a s', ok a s' → ok' a s')
    (herr : ∀ e s', err e s' → err' e s') : wp x s ok' err' := by
  unfold wp at *
  split <;> simp_all

/-- As `wp.mono`, where nothing is said about the error. -/
theorem wp.imp (h : wp x s ok err) (hok : ∀ a s', ok a s' → ok' a s') : wp x s ok' err :=
  h.mono hok fun _ _ he => he

/-- What is known of a run that ended in a value. -/
theorem wp.of_ok {a : α} {s' : σ} (h : wp x s ok err) (hrun : x.run s = (.ok a, s')) : ok a s' := by
  rwa [wp, hrun] at h

theorem wp.of_error {e : ε} {s' : σ} (h : wp x s ok err) (hrun : x.run s = (.error e, s')) :
    err e s' := by
  rwa [wp, hrun] at h

/-- As `h`, and what the run ends in is remembered. -/
theorem wp.run (h : wp x s ok err) :
    wp x s (fun a s' => ok a s' ∧ x.run s = (.ok a, s'))
      fun e s' => err e s' ∧ x.run s = (.error e, s') := by
  unfold wp at h ⊢
  split <;> rename_i hrun <;> rw [hrun] at h <;> exact ⟨h, hrun⟩

/-! ## Rules -/

@[simp] theorem wp_pure (a : α) : wp (pure a) s ok err ↔ ok a s := Iff.rfl

@[simp] theorem wp_bind {f : α → ExceptT ε (StateM σ) β} {post : β → σ → Prop} :
    wp (x >>= f) s post err ↔ wp x s (fun a s' => wp (f a) s' post err) err := by
  have hrun : (x >>= f).run s = ExceptT.bindCont f (x.run s).1 (x.run s).2 := rfl
  unfold wp
  rw [hrun]
  rcases x.run s with ⟨_ | _, _⟩ <;> rfl

/-- What comes after a computation that ends in a value. -/
theorem run_bind_of_ok {a : α} {s' : σ} {f : α → ExceptT ε (StateM σ) β} (h : x.run s = (.ok a, s')) :
    (x >>= f).run s = (f a).run s' := by
  have hrun : (x >>= f).run s = ExceptT.bindCont f (x.run s).1 (x.run s).2 := rfl
  rw [hrun, h]
  rfl

@[simp] theorem wp_map {f : α → β} {post : β → σ → Prop} :
    wp (f <$> x) s post err ↔ wp x s (fun a s' => post (f a) s') err := by
  rw [← bind_pure_comp, wp_bind]
  rfl

@[simp] theorem wp_get {post : σ → σ → Prop} :
    wp (get : ExceptT ε (StateM σ) σ) s post err ↔ post s s := Iff.rfl

@[simp] theorem wp_adapt {ε' : Type} {f : ε → ε'} {err : ε' → σ → Prop} :
    wp (x.adapt f) s ok err ↔ wp x s ok (fun e s' => err (f e) s') := by
  have hrun : (x.adapt f).run s = ((x.run s).1.mapError f, (x.run s).2) := rfl
  unfold wp
  rw [hrun]
  rcases x.run s with ⟨_ | _, _⟩ <;> rfl

/-! ## Loops -/

/-- A loop keeps an invariant that says what holds once the items of `done` are through. -/
theorem wp_forM_of_append {I : List α → σ → Prop} {f : α → ExceptT ε (StateM σ) PUnit}
    {items : List α} (hinit : I [] s)
    (hstep : ∀ done a rest s, items = done ++ a :: rest → I done s →
      wp (f a) s (fun _ => I (done ++ [a])) err) :
    wp (items.forM f) s (fun _ => I items) err := by
  -- what is left shrinks while what is done grows
  suffices hrest : ∀ rest done s, items = done ++ rest → I done s →
      wp (rest.forM f) s (fun _ => I items) err from hrest items [] s rfl hinit
  intro rest
  induction rest with
  | nil =>
    intro done s hitems hdone
    rw [hitems, List.append_nil]
    exact hdone
  | cons a rest ih =>
    intro done s hitems hdone
    refine wp_bind.2 ((hstep done a rest s hitems hdone).imp fun _ s' hnext => ?_)
    exact ih (done ++ [a]) s' (by simp [hitems]) hnext

/-- As `wp_forM_of_append`, where it does not matter which items are left. -/
theorem wp_forM {I : List α → σ → Prop} {f : α → ExceptT ε (StateM σ) PUnit} {items : List α}
    (hinit : I [] s)
    (hstep : ∀ done a s, a ∈ items → I done s → wp (f a) s (fun _ => I (done ++ [a])) err) :
    wp (items.forM f) s (fun _ => I items) err :=
  wp_forM_of_append hinit fun done a _ s hitems hdone =>
    hstep done a s (hitems ▸ List.mem_append_right _ List.mem_cons_self) hdone

/-- As for a loop; the invariant also speaks of the results so far. -/
theorem wp_mapM {I : List α → List β → σ → Prop} {f : α → ExceptT ε (StateM σ) β}
    {items : List α} (hinit : I [] [] s)
    (hstep : ∀ done results a s, a ∈ items → I done results s →
      wp (f a) s (fun b => I (done ++ [a]) (results ++ [b])) err) :
    wp (items.mapM f) s (fun results => I items results) err := by
  suffices hrest : ∀ rest done results s, items = done ++ rest → I done results s →
      wp (rest.mapM f) s (fun more => I items (results ++ more)) err from
    hrest items [] [] s rfl hinit
  intro rest
  induction rest with
  | nil =>
    intro done results s hitems hdone
    simpa [hitems] using hdone
  | cons a rest ih =>
    intro done results s hitems hdone
    have ha : a ∈ items := hitems ▸ List.mem_append_right _ List.mem_cons_self
    rw [List.mapM_cons, wp_bind]
    refine (hstep done results a s ha hdone).mono (fun b s' hnext => ?_) fun _ _ h => h
    have hrest := ih (done ++ [a]) (results ++ [b]) s' (by simp [hitems]) hnext
    rw [wp_bind]
    refine hrest.mono (fun more s'' hmore => ?_) fun _ _ h => h
    simpa using hmore

/-! ## Computations without a state -/

section Except

theorem bind_eq_ok_iff {x : Except ε α} {f : α → Except ε β} {b : β} :
    (x >>= f) = .ok b ↔ ∃ a, x = .ok a ∧ f a = .ok b := by
  cases x <;> simp [bind, Except.bind]

theorem bind_eq_error_iff {x : Except ε α} {f : α → Except ε β} {e : ε} :
    (x >>= f) = .error e ↔ x = .error e ∨ ∃ a, x = .ok a ∧ f a = .error e := by
  cases x <;> simp [bind, Except.bind]

theorem map_eq_ok_iff {x : Except ε α} {f : α → β} {b : β} :
    x.map f = .ok b ↔ ∃ a, x = .ok a ∧ f a = b := by
  cases x <;> simp [Except.map]

theorem map_eq_error_iff {x : Except ε α} {f : α → β} {e : ε} :
    x.map f = .error e ↔ x = .error e := by
  cases x <;> simp [Except.map]

theorem isOk_iff {x : Except ε α} : x.isOk = true ↔ ∃ a, x = .ok a := by
  cases x <;> simp [Except.isOk, Except.toBool]

theorem isOk_eq_false_iff {x : Except ε α} : x.isOk = false ↔ ∃ e, x = .error e := by
  cases x <;> simp [Except.isOk, Except.toBool]

/-- If `x` ends in a value, `P` holds for it. -/
def Ensures (x : Except ε α) (P : α → Prop) : Prop := ∀ a, x = .ok a → P a

@[simp] theorem ensures_ok {a : α} {P : α → Prop} : Ensures (.ok a : Except ε α) P ↔ P a := by
  simp [Ensures]

@[simp] theorem ensures_error {e : ε} {P : α → Prop} : Ensures (.error e) P := by
  simp [Ensures]

@[simp] theorem ensures_bind {x : Except ε α} {f : α → Except ε β} {P : β → Prop} :
    Ensures (x >>= f) P ↔ Ensures x fun a => Ensures (f a) P := by
  cases x <;> simp [bind, Except.bind]

theorem Ensures.bind {x : Except ε α} {f : α → Except ε β} {P : α → Prop} {Q : β → Prop}
    (hx : Ensures x P) (hf : ∀ a, P a → Ensures (f a) Q) : Ensures (x >>= f) Q :=
  ensures_bind.2 fun a ha => hf a (hx a ha)

variable {f : α → Except ε PUnit} {items : List α} {e : ε}

theorem forM_eq_ok_iff : items.forM f = .ok ⟨⟩ ↔ ∀ a ∈ items, f a = .ok ⟨⟩ := by
  induction items with
  | nil => simp [pure, Except.pure]
  | cons a items ih =>
    rw [List.forall_mem_cons, ← ih]
    cases ha : f a <;> simp [List.forM, ha, bind, Except.bind]

theorem exists_of_forM_eq_error (h : items.forM f = .error e) : ∃ a ∈ items, f a = .error e := by
  induction items with
  | nil => cases h
  | cons a items ih =>
    cases ha : f a with
    | error e' =>
      simp only [List.forM, ha, bind, Except.bind, Except.error.injEq] at h
      exact ⟨a, List.mem_cons_self, by rw [ha, h]⟩
    | ok =>
      simp only [List.forM, ha, bind, Except.bind] at h
      obtain ⟨b, hb, hfb⟩ := ih h
      exact ⟨b, List.mem_cons_of_mem _ hb, hfb⟩

end Except

end TypedClient
