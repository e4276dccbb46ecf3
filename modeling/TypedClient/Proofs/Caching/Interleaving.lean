import Mathlib.Logic.Function.Basic
import Mathlib.Logic.Relation
import TypedClient.Proofs.Caching.Entries

/-!
# Calls at the same time

Several calls ask one cache for their texts. Each looks its text up, resolves it if there is no entry,
and then inserts what it has made if there is still none; between these steps all other calls may move
on. So several calls may resolve one text, but the first insertion counts for all of them.
-/

open Relation

namespace TypedClient.TextCache

variable {ι : Type}

/-- What a call has made. It makes one entry at most, so that two entries are one and the same if the
same call has made them. -/
structure Made (ι : Type) where
  maker : ι
  resolved : Resolved

/-- How far a call has come. -/
inductive Stage (ι : Type) where
  /-- It has not looked up its text yet. -/
  | waiting
  /-- It has found nothing, and resolves the text. -/
  | resolving
  /-- It has resolved the text, and has still to insert what it has made. -/
  | inserting (r : Resolved)
  | finished (result : Except Failure (Made ι))

/-- The cache with the stages of all calls. -/
structure Calls (ι : Type) where
  cache : TextCache (Made ι)
  stage : ι → Stage ι

namespace Calls

/-- No call has begun. -/
def start (c : TextCache (Made ι)) : Calls ι := ⟨c, fun _ => .waiting⟩

variable [DecidableEq ι] {text : ι → String} {s s' : Calls ι} {i j : ι} {e : Made ι}
  {result : Except Failure (Made ι)}

/-- One call moves on, and the cache may change at the same time. -/
def advance (s : Calls ι) (i : ι) (next : Stage ι) (c : TextCache (Made ι)) : Calls ι :=
  ⟨c, Function.update s.stage i next⟩

/-- A step of one of the calls, the texts of which are given. A text may be resolved to anything, also
differently by different calls. -/
inductive Step (text : ι → String) (s : Calls ι) : Calls ι → Prop where
  | hit {i : ι} {e : Made ι} (hi : s.stage i = .waiting) (he : s.cache.get? (text i) = some e) :
      Step text s (s.advance i (.finished (.ok e)) s.cache)
  | miss {i : ι} (hi : s.stage i = .waiting) (hnone : s.cache.get? (text i) = none) :
      Step text s (s.advance i .resolving s.cache)
  | resolve {i : ι} (hi : s.stage i = .resolving) (r : Resolved) :
      Step text s (s.advance i (.inserting r) s.cache)
  | fail {i : ι} (hi : s.stage i = .resolving) (failure : Failure) :
      Step text s (s.advance i (.finished (.error failure)) s.cache)
  | insert {i : ι} {r : Resolved} (hi : s.stage i = .inserting r) :
      Step text s (s.advance i (.finished (.ok (s.cache.insertNew (text i) ⟨i, r⟩).1))
        (s.cache.insertNew (text i) ⟨i, r⟩).2)

/-- Any number of steps, of any calls. -/
abbrev Steps (text : ι → String) : Calls ι → Calls ι → Prop := ReflTransGen (Step text)

/-! ## One step -/

/-- A step moves one call, which has not finished. The cache keeps what it has, and if the call finishes
with an entry, this is the one that the cache has for its text. -/
theorem Step.exists_advance (h : Step text s s') : ∃ i next,
    (∀ result, s.stage i ≠ .finished result) ∧ s'.stage = Function.update s.stage i next ∧
    s.cache.Keeps s'.cache ∧
    ∀ e, next = .finished (.ok e) → s'.cache.get? (text i) = some e := by
  cases h with
  | @hit i e hi he =>
    refine ⟨i, _, by simp [hi], rfl, .refl _, ?_⟩
    rintro _ ⟨⟩
    exact he
  | @miss i hi _ => exact ⟨i, _, by simp [hi], rfl, .refl _, nofun⟩
  | @resolve i hi _ => exact ⟨i, _, by simp [hi], rfl, .refl _, nofun⟩
  | @fail i hi _ => exact ⟨i, _, by simp [hi], rfl, .refl _, nofun⟩
  | @insert i r hi =>
    -- no other step touches the cache
    refine ⟨i, _, by simp [hi], rfl, keeps_insertNew _ _ _, ?_⟩
    rintro _ ⟨⟩
    exact get?_insertNew _ _ _

theorem Step.keeps (h : Step text s s') : s.cache.Keeps s'.cache := by
  obtain ⟨_, _, -, -, hkeeps, -⟩ := h.exists_advance
  exact hkeeps

/-- A call that has finished stays where it is. -/
theorem Step.finished (h : Step text s s') (hj : s.stage j = .finished result) :
    s'.stage j = .finished result := by
  obtain ⟨i, next, hi, hstage, -, -⟩ := h.exists_advance
  have hne : j ≠ i := by
    rintro rfl
    exact hi result hj
  rw [hstage, Function.update_of_ne hne, hj]

/-- Every call that has finished with an entry has the one that the cache holds for its text. -/
def Settled (text : ι → String) (s : Calls ι) : Prop :=
  ∀ i e, s.stage i = .finished (.ok e) → s.cache.get? (text i) = some e

omit [DecidableEq ι] in
theorem settled_start (text : ι → String) (c : TextCache (Made ι)) : (start c).Settled text := nofun

theorem Settled.step (hs : s.Settled text) (h : Step text s s') : s'.Settled text := by
  obtain ⟨i, next, -, hstage, hkeeps, hentry⟩ := h.exists_advance
  intro j e hj
  rw [hstage] at hj
  -- the call that moves has its entry from the cache; for all others the cache keeps what they have
  by_cases hji : j = i
  · subst hji
    rw [Function.update_self] at hj
    exact hentry e hj
  · rw [Function.update_of_ne hji] at hj
    exact hkeeps _ e (hs j e hj)

/-! ## Any number of steps -/

theorem Steps.keeps (h : Steps text s s') : s.cache.Keeps s'.cache := by
  induction h with
  | refl => exact .refl _
  | tail _ hstep ih => exact ih.trans hstep.keeps

theorem Steps.finished (h : Steps text s s') (hi : s.stage i = .finished result) :
    s'.stage i = .finished result := by
  induction h with
  | refl => exact hi
  | tail _ hstep ih => exact hstep.finished ih

theorem Steps.settled (h : Steps text s s') (hs : s.Settled text) : s'.Settled text := by
  induction h with
  | refl => exact hs
  | tail _ hstep ih => exact ih.step hstep

/-- Undisturbed by the others, a call does what the cache does for a single one. -/
theorem steps_getOrResolve (hi : s.stage i = .waiting) (outcome : Except Failure Resolved) :
    Steps text s (s.advance i
      (.finished (s.cache.getOrResolve (text i) fun _ => outcome.map (⟨i, ·⟩)).1)
      (s.cache.getOrResolve (text i) fun _ => outcome.map (⟨i, ·⟩)).2) := by
  cases hget : s.cache.get? (text i) with
  | some e =>
    rw [getOrResolve, getOrResolveM_of_some hget]
    exact .single (.hit hi hget)
  | none =>
    rw [getOrResolve, getOrResolveM_of_none hget]
    have hmiss : Steps text s (s.advance i .resolving s.cache) := .single (.miss hi hget)
    have hresolving : (s.advance i .resolving s.cache).stage i = .resolving :=
      Function.update_self _ _ _
    -- the stages that the call passes through are forgotten, as each overwrites the one before
    cases outcome with
    | error failure =>
      have hfail := hmiss.tail (.fail hresolving failure)
      rwa [advance, advance, Function.update_idem] at hfail
    | ok r =>
      have hinserting : ((s.advance i .resolving s.cache).advance i (.inserting r) s.cache).stage i =
          .inserting r := Function.update_self _ _ _
      have hinsert := (hmiss.tail (.resolve hresolving r)).tail (.insert hinserting)
      rwa [advance, advance, advance, Function.update_idem, Function.update_idem] at hinsert

/-- Whatever the calls do, an entry that is there stays there, and there is one for a key. A call that
has ended with an entry has the one that the cache holds for its text from then on, and so calls with
one text that end with entries have the same. -/
theorem first_insertion_counts {c : TextCache (Made ι)} (h : Steps text (start c) s)
    (h' : Steps text s s') :
    (∀ k e, s.cache.entry? k = some e → s'.cache.entry? k = some e) ∧
    (s'.cache.entries.map Prod.fst).Nodup ∧
    (∀ i e, s.stage i = .finished (.ok e) →
      s'.stage i = .finished (.ok e) ∧ s'.cache.get? (text i) = some e) ∧
    ∀ i j e e', s'.stage i = .finished (.ok e) → s'.stage j = .finished (.ok e') →
      text i = text j → e = e' := by
  have hsettled : s'.Settled text := Steps.settled (h.trans h') (settled_start text c)
  refine ⟨Steps.keeps h', s'.cache.distinct, fun i e hi => ?_, fun i j e e' hi hj htext => ?_⟩
  · have hi' := Steps.finished h' hi
    exact ⟨hi', hsettled i e hi'⟩
  · have hentry := hsettled i e hi
    rw [htext, hsettled j e' hj] at hentry
    exact (Option.some.inj hentry).symm

/-- A document that says no more than its title. -/
def titled (title : String) : Resolved := ⟨⟨∅, ∅, [], none, some title⟩, .empty⟩

/-- Two calls resolve one text, and differently. The one that inserts last gets what the other has
made. -/
theorem later_insertion_gets_first_entry : ∃ s s' : Calls Bool,
    Steps (fun _ => "") (start .empty) s ∧ Steps (fun _ => "") s s' ∧
    s.stage true = .finished (.ok ⟨true, titled "b"⟩) ∧ s.stage false = .inserting (titled "a") ∧
    s'.stage false = .finished (.ok ⟨true, titled "b"⟩) := by
  obtain ⟨s, hfirst, htrue, hfalse⟩ : ∃ s : Calls Bool, Steps (fun _ => "") (start .empty) s ∧
      s.stage true = .finished (.ok ⟨true, titled "b"⟩) ∧
      s.stage false = .inserting (titled "a") := by
    have hmisses : Steps (fun _ => "") (start .empty) _ :=
      (ReflTransGen.single (.miss (i := false) rfl rfl)).tail (.miss (i := true) rfl rfl)
    have hresolves := (hmisses.tail (.resolve (i := false) rfl (titled "a"))).tail
      (.resolve (i := true) rfl (titled "b"))
    exact ⟨_, hresolves.tail (.insert (i := true) rfl), rfl, rfl⟩
  have hlast : Steps (fun _ => "") s _ := .single (.insert hfalse)
  refine ⟨s, _, hfirst, hlast, htrue, hfalse, ?_⟩
  obtain ⟨-, -, hkept, hagree⟩ := first_insertion_counts hfirst hlast
  have hend := Function.update_self false (.finished (.ok (s.cache.insertNew "" ⟨false, titled "a"⟩).1))
    s.stage
  rw [hagree true false _ _ (hkept true _ htrue).1 hend rfl]
  exact hend

end Calls

end TypedClient.TextCache
