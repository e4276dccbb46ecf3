import Mathlib.Data.List.Dedup
import Mathlib.Data.List.Perm.Basic
import TypedClient.Proofs.Caching.Entries
import TypedClient.Proofs.Failures

/-!
# Calls one after the other

Calls that share a cache return what they return without it. The cache has what the texts so far are
resolved to, and nothing that depends on settings, so that it does not matter which call a text comes
from. As for the work, a text that is resolved once is not resolved again.
-/

namespace TypedClient.Cache

open TextCache (key)

variable {c : Cache} {s : Settings} {text : String} {r : Resolved} {e : Failure}
  {seen loaded : List String}

/-- Resolves a text, and notes that it does. -/
def loadNoted (text : String) : StateM (List String) (Except Failure Resolved) := do
  modify (· ++ [text])
  pure (Resolved.ofText text)

/-- The results of calls by way of a cache, and what it is after them. -/
def calls (c : Cache) : List (Settings × String) →
    StateM (List String) (List (Except Failure Generation) × Cache)
  | []                => pure ([], c)
  | (s, text) :: rest => do
    let (result, c) ← c.generateM loadNoted s text
    let (results, c) ← c.calls rest
    pure (result :: results, c)

/-! ## One call -/

theorem generateM_of_some (h : c.get? text = some r) :
    (c.generateM loadNoted s text).run loaded = ((s.generateFrom r, c), loaded) := by
  rw [generateM, TextCache.getOrResolveM_of_some h]
  rfl

theorem generateM_of_none (h : c.get? text = none) :
    (c.generateM loadNoted s text).run loaded =
      (((c.keep text (Resolved.ofText text)).1.bind s.generateFrom,
        (c.keep text (Resolved.ofText text)).2), loaded ++ [text]) := by
  rw [generateM, TextCache.getOrResolveM_of_none h]
  rfl

/-- To note what is loaded changes nothing else. -/
theorem fst_run_generateM (c : Cache) (s : Settings) (text : String) (loaded : List String) :
    ((c.generateM loadNoted s text).run loaded).1 = c.generate s text := by
  cases hget : c.get? text with
  | some r =>
    rw [generateM_of_some hget, generate, generateM, TextCache.getOrResolveM_of_some hget]
    rfl
  | none =>
    rw [generateM_of_none hget, generate, generateM, TextCache.getOrResolveM_of_none hget]
    rfl

/-- Where a call fails, nothing is kept: what is resolved gives a result with any settings. -/
theorem cache_eq_of_error (h : (c.generate s text).1 = .error e) : (c.generate s text).2 = c := by
  rw [← fst_run_generateM c s text []] at h ⊢
  cases hget : c.get? text with
  | some r => rw [generateM_of_some hget]
  | none =>
    rw [generateM_of_none hget] at h ⊢
    cases hr : Resolved.ofText text with
    | error failure => rfl
    | ok r =>
      -- only a failure to load or resolve can come out, and this is none
      obtain ⟨g, hg⟩ := s.exists_generateFrom (Resolved.ofText_eq_ok_iff.1 hr).2
      rw [hr, TextCache.keep_ok, (TextCache.insertNew_of_none hget r).1] at h
      cases hg.symm.trans h

/-- After calls for the texts that are seen: the entries are what these are resolved to, and each of
them that is resolved was loaded once. -/
structure After (seen : List String) (c : Cache) (loaded : List String) : Prop where
  mem_entries_iff : ∀ k r, (k, r) ∈ c.entries ↔
    ∃ text ∈ seen, key text = k ∧ Resolved.ofText text = .ok r
  count : ∀ text r, Resolved.ofText text = .ok r →
    loaded.count text = if text ∈ seen then 1 else 0

theorem After.start : After [] .empty [] := ⟨by simp [TextCache.empty], by simp⟩

namespace After

variable (h : After seen c loaded)

include h

theorem of_mem (hmem : text ∈ seen) : After (seen ++ [text]) c loaded := by
  have hseen (u : String) : u ∈ seen ++ [text] ↔ u ∈ seen := by
    rw [List.mem_append, List.mem_singleton, or_iff_left_of_imp]
    rintro rfl
    exact hmem
  exact ⟨by simpa only [hseen] using h.mem_entries_iff, by simpa only [hseen] using h.count⟩

/-- What cannot be resolved leaves no entry, and it does not count how often it is loaded. -/
theorem of_error (herror : Resolved.ofText text = .error e) :
    After (seen ++ [text]) c (loaded ++ [text]) := by
  refine ⟨fun k r => ?_, fun u r hu => ?_⟩
  · simp [h.mem_entries_iff, or_and_right, exists_or, herror]
  · have hne : u ≠ text := by
      rintro rfl
      cases herror.symm.trans hu
    simp [List.count_append, h.count u r hu, hne, hne.symm]

theorem of_ok (hnew : text ∉ seen) (hr : Resolved.ofText text = .ok r) {c' : Cache}
    (hentries : c'.entries = c.entries ++ [(key text, r)]) :
    After (seen ++ [text]) c' (loaded ++ [text]) := by
  refine ⟨fun k r' => ?_, fun u r' hu => ?_⟩
  · simp [hentries, h.mem_entries_iff, or_and_right, exists_or, hr, eq_comm]
  · rw [List.count_append, h.count u r' hu, List.count_singleton]
    by_cases hut : u = text
    · subst hut
      simp [hnew]
    · simp [hut, Ne.symm hut]

/-- A text is found if it is seen, as no other text has its key. -/
theorem get?_eq_some_iff (hkey : ∀ u ∈ seen, key u = key text → u = text) :
    c.get? text = some r ↔ text ∈ seen ∧ Resolved.ofText text = .ok r := by
  rw [TextCache.get?_eq_some_iff, h.mem_entries_iff]
  constructor
  · rintro ⟨u, hu, hku, hr⟩
    obtain rfl := hkey u hu hku
    exact ⟨hu, hr⟩
  · rintro ⟨htext, hr⟩
    exact ⟨text, htext, rfl, hr⟩

/-- A call returns what it returns without the cache. -/
theorem call (hkey : ∀ u ∈ seen, key u = key text → u = text) (s : Settings) : ∃ c' loaded',
    (c.generateM loadNoted s text).run loaded = ((s.generate text, c'), loaded') ∧
    After (seen ++ [text]) c' loaded' := by
  cases hget : c.get? text with
  | some r =>
    obtain ⟨hseen, hr⟩ := (h.get?_eq_some_iff hkey).1 hget
    refine ⟨c, loaded, ?_, h.of_mem hseen⟩
    rw [generateM_of_some hget, Settings.generate, hr]
    rfl
  | none =>
    rw [generateM_of_none hget]
    cases hr : Resolved.ofText text with
    | error e =>
      refine ⟨c, loaded ++ [text], ?_, h.of_error hr⟩
      rw [TextCache.keep_error, Settings.generate, hr]
      rfl
    | ok r =>
      have hnew : text ∉ seen := by
        intro hseen
        cases hget.symm.trans ((h.get?_eq_some_iff hkey).2 ⟨hseen, hr⟩)
      obtain ⟨hentry, hentries⟩ := TextCache.insertNew_of_none hget r
      refine ⟨(c.insertNew text r).2, loaded ++ [text], ?_, h.of_ok hnew hr hentries⟩
      rw [TextCache.keep_ok, hentry, Settings.generate, hr]
      rfl

end After

/-! ## Many calls -/

variable {history : List (Settings × String)}

/-- The texts of the calls. -/
def texts (history : List (Settings × String)) : List String := history.map Prod.snd

/-- Those of the texts that can be loaded and resolved, each once. -/
def resolvable (history : List (Settings × String)) : List String :=
  ((texts history).filter fun text => (Resolved.ofText text).isOk).dedup

theorem mem_resolvable : text ∈ resolvable history ↔
    text ∈ texts history ∧ ∃ r, Resolved.ofText text = .ok r := by
  rw [resolvable, List.mem_dedup, List.mem_filter, isOk_iff]

theorem run_calls_cons {result : Except Failure Generation} {c' c'' : Cache}
    {results : List (Except Failure Generation)} {loaded' loaded'' : List String}
    (hcall : (c.generateM loadNoted s text).run loaded = ((result, c'), loaded'))
    (hrest : (c'.calls history).run loaded' = ((results, c''), loaded'')) :
    (c.calls ((s, text) :: history)).run loaded = ((result :: results, c''), loaded'') := by
  rw [calls, StateT.run_bind, hcall]
  exact congrArg (fun rest => ((result :: rest.1.1, rest.1.2), rest.2)) hrest

theorem After.calls (h : After seen c loaded)
    (hkeys : ∀ t ∈ seen ++ texts history, ∀ u ∈ seen ++ texts history, key t = key u → t = u) :
    ∃ c' loaded', (c.calls history).run loaded =
        ((history.map fun call => call.1.generate call.2, c'), loaded') ∧
      After (seen ++ texts history) c' loaded' := by
  induction history generalizing seen c loaded with
  | nil => exact ⟨c, loaded, rfl, by rwa [texts, List.map_nil, List.append_nil]⟩
  | cons first rest ih =>
    obtain ⟨s, text⟩ := first
    -- the first text moves to those that are seen, so the hypothesis on keys stays the same
    have hseen : seen ++ texts ((s, text) :: rest) = (seen ++ [text]) ++ texts rest := by simp [texts]
    rw [hseen] at hkeys ⊢
    have hkey : ∀ u ∈ seen, key u = key text → u = text := fun u hu =>
      hkeys u (by simp [hu]) text (by simp)
    obtain ⟨c₁, loaded₁, hcall, h₁⟩ := h.call hkey s
    obtain ⟨c₂, loaded₂, hrest, h₂⟩ := ih h₁ hkeys
    exact ⟨c₂, loaded₂, run_calls_cons hcall hrest, h₂⟩

/-- There is one entry for each text that can be resolved. -/
theorem After.size_eq (h : After (texts history) c loaded)
    (hkeys : ∀ t ∈ texts history, ∀ u ∈ texts history, key t = key u → t = u) :
    c.size = (resolvable history).length := by
  have hnodup : ((resolvable history).map key).Nodup :=
    (List.nodup_dedup _).map_on fun t ht u hu =>
      hkeys t (mem_resolvable.1 ht).1 u (mem_resolvable.1 hu).1
  -- neither list has anything twice, so it is enough that they have the same members
  have hperm : (c.entries.map Prod.fst).Perm ((resolvable history).map key) := by
    refine (List.perm_ext_iff_of_nodup c.distinct hnodup).2 fun k => ?_
    simp only [List.mem_map, Prod.exists, exists_and_right, exists_eq_right, h.mem_entries_iff,
      mem_resolvable]
    constructor
    · rintro ⟨r, text, htext, hk, hr⟩
      exact ⟨text, ⟨htext, r, hr⟩, hk⟩
    · rintro ⟨text, ⟨htext, r, hr⟩, hk⟩
      exact ⟨r, text, htext, hk, hr⟩
  simpa [TextCache.size] using hperm.length_eq

/-- Calls by way of a cache that is empty at first return what they return without one, if different
texts have different keys. Each text that can be resolved is loaded once. A call that fails leaves the
cache as it is. In the end there is one entry for each text that can be resolved, with what it is
resolved to. -/
theorem calls_eq_generate
    (hkeys : ∀ t ∈ texts history, ∀ u ∈ texts history, key t = key u → t = u) :
    ∃ c loaded, (calls .empty history).run [] =
        ((history.map fun call => call.1.generate call.2, c), loaded) ∧
      (∀ text ∈ texts history, ∀ r, Resolved.ofText text = .ok r → loaded.count text = 1) ∧
      (∀ (c : Cache) s text e, (c.generate s text).1 = .error e → (c.generate s text).2 = c) ∧
      (∀ k r, (k, r) ∈ c.entries ↔
        ∃ text ∈ texts history, key text = k ∧ Resolved.ofText text = .ok r) ∧
      c.size = (resolvable history).length := by
  have hstart : ∀ t ∈ [] ++ texts history, ∀ u ∈ [] ++ texts history, key t = key u → t = u := hkeys
  obtain ⟨c, loaded, hrun, hafter⟩ := After.start.calls hstart
  rw [List.nil_append] at hafter
  refine ⟨c, loaded, hrun, fun text htext r hr => ?_, fun c s text e => cache_eq_of_error,
    hafter.mem_entries_iff, hafter.size_eq hkeys⟩
  rw [hafter.count text r hr, if_pos htext]

open Json (idleText)

theorem isOk_idleText : (Resolved.ofText idleText).isOk = true := by
  rw [Resolved.ofText, load_eq_documentData ?text]
  case text =>
    simp only [idleText, Json.toList_record, Json.toList_quote]
    rfl
  decide +kernel

/-- One document is generated from twice, with different settings, and the third call fails. -/
def idleCalls : List (Settings × String) :=
  [({}, idleText), ({ clientName := "Other" }, idleText), ({}, "\x7b")]

theorem idleCalls_eq_generate : ∃ c loaded, (calls .empty idleCalls).run [] =
      ((idleCalls.map fun call => call.1.generate call.2, c), loaded) ∧
    loaded.count idleText = 1 ∧ c.size = 1 := by
  have hkeys : ∀ t ∈ texts idleCalls, ∀ u ∈ texts idleCalls, key t = key u → t = u := by
    decide +kernel
  obtain ⟨c, loaded, hrun, hloaded, -, -, hsize⟩ := calls_eq_generate hkeys
  obtain ⟨r, hr⟩ := isOk_iff.1 isOk_idleText
  refine ⟨c, loaded, hrun, hloaded idleText (by simp [texts, idleCalls]) r hr, ?_⟩
  have hmalformed : (Resolved.ofText "\x7b").isOk = false := by decide +kernel
  have hresolvable : resolvable idleCalls = [idleText] := by
    simp [resolvable, texts, idleCalls, isOk_idleText, hmalformed]
  rw [hsize, hresolvable, List.length_singleton]

end TypedClient.Cache
