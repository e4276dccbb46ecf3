import TypedClient.Data.Value
import TypedClient.Proofs.Repeats

/-!
# The entries of mappings

An entry is put in the place of an earlier one with the same key, or at the end. So a mapping that is
made by putting entries has each key once, where the key comes first, with the value that comes last.
-/

namespace TypedClient.Data

variable {known entries : List (Data × Data)} {e : Data × Data} {key key' value : Data} {k : String}
  {P Q : Data → Prop}

/-- No key occurs again behind its entry. -/
def Distinct (entries : List (Data × Data)) : Prop :=
  entries.Pairwise fun e e' => e.1.sameKey e'.1 = false

theorem hasKey_eq_false_iff :
    hasKey entries key = false ↔ ∀ e ∈ entries, e.1.sameKey key = false := by
  simp [hasKey]

theorem distinct_append_singleton :
    Distinct (entries ++ [e]) ↔ Distinct entries ∧ hasKey entries e.1 = false := by
  rw [Distinct, List.pairwise_append, hasKey_eq_false_iff]
  simp [Distinct]

theorem distinct_iff_keys :
    Distinct entries ↔ (entries.map Prod.fst).Pairwise fun key key' => key.sameKey key' = false := by
  rw [Distinct, List.pairwise_map]

/-! ## Keys that are texts -/

/-- Whether two keys are the same text. -/
def sameText : Data → Data → Bool
  | .text s, .text t => s == t
  | _, _ => false

theorem sameText_comm (key key' : Data) : key.sameText key' = key'.sameText key := by
  cases key <;> cases key' <;> simp [sameText, Bool.beq_comm]

theorem sameText_of_asText?_eq_none (h : key.asText? = none) : key.sameText key' = false := by
  cases key <;> simp_all [sameText, asText?]

theorem asText?_eq_of_sameKey (h : key.sameKey key') : key.asText? = key'.asText? := by
  cases key <;> cases key' <;> simp_all [sameKey, asText?]

theorem asText?_ne_of_sameKey_eq_false (h : key.sameKey key' = false) (hkey : key.asText? = some k) :
    key'.asText? ≠ some k := by
  cases key <;> cases key' <;> simp_all [sameKey, asText?]
  exact Ne.symm h

theorem lookup_eq_find? (k : String) (entries : List (Data × Data)) :
    lookup k entries = (entries.find? fun e => e.1.asText? = some k).map Prod.snd := by
  induction entries with
  | nil => rfl
  | cons e entries ih =>
    obtain ⟨key, v⟩ := e
    cases key with
    | text s => by_cases hs : s = k <;> simp [lookup, asText?, hs, ih]
    | _ => exact ih

/-! ## One more entry -/

theorem keys_putEntry : (putEntry entries key value).map Prod.fst =
    if hasKey entries key then entries.map Prod.fst else entries.map Prod.fst ++ [key] := by
  fun_induction putEntry entries key value with
  | case1 => rfl
  | case2 known v rest hsame => simp [hasKey, hsame]
  | case3 known v rest hne ih =>
    have hrest : hasKey ((known, v) :: rest) key = hasKey rest key := by simp [hasKey, hne]
    rw [hrest, List.map_cons, ih, List.map_cons]
    split <;> rfl

theorem putEntry_of_new (h : hasKey entries key = false) :
    putEntry entries key value = entries ++ [(key, value)] := by
  fun_induction putEntry entries key value with
  | case1 => rfl
  | case2 known v rest hsame => simp [hasKey, hsame] at h
  | case3 known v rest hne ih =>
    rw [ih (by simpa [hasKey, hne] using h), List.cons_append]

theorem distinct_putEntry (h : Distinct entries) : Distinct (putEntry entries key value) := by
  cases hkey : hasKey entries key with
  | true =>
    rwa [distinct_iff_keys, keys_putEntry, if_pos hkey, ← distinct_iff_keys]
  | false =>
    rw [putEntry_of_new hkey, distinct_append_singleton]
    exact ⟨h, hkey⟩

theorem forall_mem_putEntry (h : ∀ e ∈ entries, P e.1 ∧ Q e.2) (hkey : P key) (hvalue : Q value) :
    ∀ e ∈ putEntry entries key value, P e.1 ∧ Q e.2 := by
  fun_induction putEntry entries key value with
  | case1 => simpa using ⟨hkey, hvalue⟩
  | case2 known v rest hsame =>
    rw [List.forall_mem_cons] at h ⊢
    exact ⟨⟨h.1.1, hvalue⟩, h.2⟩
  | case3 known v rest hne ih =>
    rw [List.forall_mem_cons] at h ⊢
    exact ⟨h.1, ih h.2⟩

/-- Under the text that is the key stands the new value, under any other what stood there before. -/
theorem lookup_putEntry : lookup k (putEntry entries key value) =
    if key.asText? = some k then some value else lookup k entries := by
  rw [lookup_eq_find?, lookup_eq_find?]
  fun_induction putEntry entries key value with
  | case1 => by_cases hk : key.asText? = some k <;> simp [hk]
  | case2 known v rest hsame =>
    have hknown := asText?_eq_of_sameKey hsame
    by_cases hk : key.asText? = some k <;> simp [hknown, hk]
  | case3 known v rest hne ih =>
    by_cases hknown : known.asText? = some k
    · have hk := asText?_ne_of_sameKey_eq_false (Bool.eq_false_iff.2 hne) hknown
      simp [hknown, hk]
    · simp [hknown, ih]

/-- The entries whose keys are no texts. -/
def others (entries : List (Data × Data)) : List (Data × Data) :=
  entries.filter fun e => e.1.asText?.isNone

theorem others_putEntry_of_text (h : key.asText?.isSome) :
    others (putEntry entries key value) = others entries := by
  fun_induction putEntry entries key value with
  | case1 => simpa [others, Option.isSome_iff_ne_none] using h
  | case2 known v rest hsame =>
    have hknown := asText?_eq_of_sameKey hsame
    simp [others, hknown, Option.isSome_iff_ne_none.1 h]
  | case3 known v rest hne ih =>
    simp only [others, List.filter_cons] at ih ⊢
    rw [ih]

/-! ## All entries -/

/-- The entries put one after the other behind those in `known`. -/
def putAll (known entries : List (Data × Data)) : List (Data × Data) :=
  entries.foldl (fun known e => putEntry known e.1 e.2) known

theorem putAll_append_singleton :
    putAll known (entries ++ [e]) = putEntry (putAll known entries) e.1 e.2 := by
  simp [putAll]

theorem putAll_of_distinct (h : Distinct (known ++ entries)) :
    putAll known entries = known ++ entries := by
  induction entries using List.reverseRecOn with
  | nil => simp [putAll]
  | append_singleton entries e ih =>
    rw [← List.append_assoc, distinct_append_singleton] at h
    rw [putAll_append_singleton, ih h.1, putEntry_of_new h.2, List.append_assoc]

theorem distinct_putAll (entries : List (Data × Data)) : Distinct (putAll [] entries) := by
  induction entries using List.reverseRecOn with
  | nil => exact .nil
  | append_singleton entries e ih =>
    rw [putAll_append_singleton]
    exact distinct_putEntry ih

theorem forall_mem_putAll (h : ∀ e ∈ entries, P e.1 ∧ Q e.2) :
    ∀ e ∈ putAll [] entries, P e.1 ∧ Q e.2 := by
  induction entries using List.reverseRecOn with
  | nil => exact List.forall_mem_nil _
  | append_singleton entries e ih =>
    rw [List.forall_mem_append, List.forall_mem_singleton] at h
    rw [putAll_append_singleton]
    exact forall_mem_putEntry (ih h.1) h.2.1 h.2.2

theorem lookup_putAll (k : String) (entries : List (Data × Data)) : lookup k (putAll [] entries) =
    (entries.findRev? fun e => e.1.asText? = some k).map Prod.snd := by
  induction entries using List.reverseRecOn with
  | nil => rfl
  | append_singleton entries e ih =>
    rw [putAll_append_singleton, lookup_putEntry, ih, findRev?_append_singleton]
    by_cases he : e.1.asText? = some k <;> simp [he]

/-- Of the keys only texts occur again. -/
def OnlyTextsRecur (entries : List (Data × Data)) : Prop :=
  entries.Pairwise fun e e' => e.1.sameKey e'.1 = e.1.sameText e'.1

theorem onlyTextsRecur_append_singleton : OnlyTextsRecur (entries ++ [e]) ↔
    OnlyTextsRecur entries ∧ ∀ e' ∈ entries, e'.1.sameKey e.1 = e'.1.sameText e.1 := by
  rw [OnlyTextsRecur, List.pairwise_append]
  simp [OnlyTextsRecur]

theorem hasKey_putAll (h : ∀ e ∈ entries, e.1.sameKey key = e.1.sameText key) :
    hasKey (putAll [] entries) key = ((putAll [] entries).map Prod.fst).any (key.sameText ·) := by
  have hkeys := forall_mem_putAll (P := fun known => known.sameKey key = known.sameText key)
    (Q := fun _ => True) fun e he => ⟨h e he, trivial⟩
  rw [Bool.eq_iff_iff, hasKey, List.any_map, List.any_eq_true, List.any_eq_true]
  refine exists_congr fun e => and_congr_right fun he => ?_
  rw [(hkeys e he).1, Function.comp_apply, sameText_comm]

/-- Each key stands where it comes first. -/
theorem keys_putAll (h : OnlyTextsRecur entries) :
    (putAll [] entries).map Prod.fst = (entries.map Prod.fst).eraseDupsBy sameText := by
  induction entries using List.reverseRecOn with
  | nil => rfl
  | append_singleton entries e ih =>
    rw [onlyTextsRecur_append_singleton] at h
    rw [putAll_append_singleton, keys_putEntry, hasKey_putAll h.2, List.map_append, List.map_singleton,
      eraseDupsBy_append_singleton, ih h.1]

theorem others_putAll (h : OnlyTextsRecur entries) : others (putAll [] entries) = others entries := by
  induction entries using List.reverseRecOn with
  | nil => rfl
  | append_singleton entries e ih =>
    rw [onlyTextsRecur_append_singleton] at h
    rw [putAll_append_singleton]
    cases htext : e.1.asText? with
    | some s =>
      -- a text may be known, but is none of the others
      rw [others_putEntry_of_text (by simp [htext]), ih h.1]
      simp [others, htext]
    | none =>
      have hnew : hasKey (putAll [] entries) e.1 = false := by
        simp [hasKey_putAll h.2, sameText_of_asText?_eq_none htext]
      rw [putEntry_of_new hnew, others, List.filter_append, ← others, ih h.1]
      simp [others]

end TypedClient.Data
