import Mathlib.Data.List.Forall2
import TypedClient.OrderedMap

/-!
# Lookup in ordered maps

No name occurs twice, so an entry is found under its name, and insertion changes what is found under
one name only.
-/

namespace TypedClient.OrderedMap

variable {α β : Type} {m other : OrderedMap α} {name key : String} {value : α}

/-! ## Entries -/

section Lookup

variable {κ : Type} [BEq κ] [LawfulBEq κ] [DecidableEq κ] {entries : List (κ × α)} {name : κ}

theorem lookup_cons_eq_if (e : κ × α) (entries : List (κ × α)) (key : κ) :
    (e :: entries).lookup key = if key = e.1 then some e.2 else entries.lookup key := by
  rw [List.lookup_cons]
  split <;> simp_all

theorem lookup_of_mem (hdistinct : (entries.map Prod.fst).Nodup)
    (h : (name, value) ∈ entries) : entries.lookup name = some value := by
  induction entries with
  | nil => exact absurd h List.not_mem_nil
  | cons e entries ih =>
    obtain ⟨hnew, hdistinct⟩ := List.nodup_cons.1 hdistinct
    rw [lookup_cons_eq_if]
    rcases List.mem_cons.1 h with rfl | h
    · exact if_pos rfl
    · have hne : name ≠ e.1 := fun heq => hnew (heq ▸ List.mem_map_of_mem h)
      rw [if_neg hne]
      exact ih hdistinct h

omit [DecidableEq κ] in
theorem mem_of_lookup_eq_some (h : entries.lookup name = some value) : (name, value) ∈ entries := by
  obtain ⟨before, after, hentries, -⟩ := List.lookup_eq_some_iff.1 h
  exact hentries ▸ List.mem_append_right _ List.mem_cons_self

theorem lookup_map_replace (entries : List (κ × α)) (name key : κ) (value : α) :
    (entries.map fun e => if e.1 = name then (name, value) else e).lookup key =
      if key = name ∧ name ∈ entries.map Prod.fst then some value else entries.lookup key := by
  induction entries with
  | nil => simp
  | cons e entries ih =>
    rw [List.map_cons, lookup_cons_eq_if, lookup_cons_eq_if, ih]
    grind

end Lookup

theorem get?_eq_some_iff : m.get? name = some value ↔ (name, value) ∈ m.entries :=
  ⟨mem_of_lookup_eq_some, lookup_of_mem m.distinct⟩

theorem mem_names_iff : name ∈ m.names ↔ ∃ value, m.get? name = some value := by
  simp only [names, List.mem_map, get?_eq_some_iff]
  constructor
  · rintro ⟨⟨_, value⟩, hmem, rfl⟩
    exact ⟨value, hmem⟩
  · rintro ⟨value, hmem⟩
    exact ⟨_, hmem, rfl⟩

theorem get?_eq_none_iff : m.get? name = none ↔ name ∉ m.names := by
  rw [mem_names_iff, Option.eq_none_iff_forall_ne_some, not_exists]

theorem mem_names_of_get? (h : m.get? name = some value) : name ∈ m.names :=
  mem_names_iff.2 ⟨value, h⟩

@[simp] theorem contains_iff : m.contains name = true ↔ name ∈ m.names := by
  simp [contains]

/-- What is found under a name does not depend on the order of the entries. -/
theorem get?_eq_of_perm {m' : OrderedMap α} (h : m'.entries.Perm m.entries) (name : String) :
    m'.get? name = m.get? name := by
  apply Option.ext
  intro value
  rw [get?_eq_some_iff, get?_eq_some_iff, h.mem_iff]

/-! ## Insertion -/

theorem lookup_replaced (entries : List (String × α)) (name key : String) (value : α) :
    (replaced entries name value).lookup key =
      if key = name ∧ name ∈ entries.map Prod.fst then some value else entries.lookup key :=
  lookup_map_replace entries name key value

theorem get?_insert (m : OrderedMap α) (name : String) (value : α) (key : String) :
    (m.insert name value).get? key = if key = name then some value else m.get? key := by
  unfold insert get?
  split
  · rename_i hmem
    simp [lookup_replaced, hmem]
  · rename_i hmem
    rw [List.lookup_append, lookup_cons_eq_if]
    by_cases hkey : key = name
    · subst hkey
      have hnone : m.entries.lookup key = none := get?_eq_none_iff.2 hmem
      simp [hnone]
    · simp [hkey]

theorem entries_insert (h : name ∉ m.names) :
    (m.insert name value).entries = m.entries ++ [(name, value)] :=
  congrArg entries (dif_neg h)

theorem entries_insert_of_mem (h : name ∈ m.names) :
    (m.insert name value).entries = replaced m.entries name value :=
  congrArg entries (dif_pos h)

theorem mem_names_insert : key ∈ (m.insert name value).names ↔ key = name ∨ key ∈ m.names := by
  simp only [mem_names_iff, get?_insert]
  by_cases hkey : key = name <;> simp [hkey]

theorem replaced_of_not_mem {entries : List (String × α)} (h : name ∉ entries.map Prod.fst) :
    replaced entries name value = entries := by
  refine (List.map_congr_left fun e he => ?_).trans (List.map_id entries)
  have hne : e.1 ≠ name := fun heq => h (heq ▸ List.mem_map_of_mem he)
  exact if_neg hne

theorem ext_entries {m m' : OrderedMap α} (h : m.entries = m'.entries) : m = m' := by
  cases m
  cases m'
  exact OrderedMap.mk.injEq .. ▸ h

/-- The value that is given last counts. -/
theorem insert_insert (m : OrderedMap α) (name : String) (value value' : α) :
    (m.insert name value).insert name value' = m.insert name value' := by
  have hmem : name ∈ (m.insert name value).names := mem_names_insert.2 (.inl rfl)
  apply ext_entries
  rw [entries_insert_of_mem hmem]
  by_cases hname : name ∈ m.names
  · rw [entries_insert_of_mem hname, entries_insert_of_mem hname, replaced, replaced, replaced,
      List.map_map]
    refine List.map_congr_left fun e _ => ?_
    dsimp only [Function.comp_apply]
    split <;> simp_all
  · rw [entries_insert hname, entries_insert hname, replaced, List.map_append, ← replaced,
      replaced_of_not_mem hname]
    simp

theorem mem_names_insertAll {entries : List (String × α)} :
    name ∈ (m.insertAll entries).names ↔ name ∈ entries.map Prod.fst ∨ name ∈ m.names := by
  induction entries generalizing m with
  | nil => simp [insertAll]
  | cons e entries ih =>
    have hrest := ih (m := m.insert e.1 e.2)
    rw [mem_names_insert] at hrest
    rw [List.map_cons, List.mem_cons, or_assoc, or_left_comm]
    exact hrest

theorem mem_names_ofList {entries : List (String × α)} :
    name ∈ (ofList entries).names ↔ name ∈ entries.map Prod.fst := by
  rw [ofList, mem_names_insertAll]
  exact or_iff_left List.not_mem_nil

/-- Entries of new names are added at the end as they are. -/
theorem entries_insertAll {entries : List (String × α)}
    (h : (m.entries.map Prod.fst ++ entries.map Prod.fst).Nodup) :
    (m.insertAll entries).entries = m.entries ++ entries := by
  induction entries generalizing m with
  | nil => simp [insertAll]
  | cons e entries ih =>
    have hnew : e.1 ∉ m.entries.map Prod.fst := by
      rw [List.nodup_append] at h
      exact fun hmem => h.2.2 _ hmem _ List.mem_cons_self rfl
    have hinsert : (m.insert e.1 e.2).entries = m.entries ++ [e] := entries_insert hnew
    have hrest := ih (m := m.insert e.1 e.2) (by simpa [hinsert] using h)
    rw [hinsert] at hrest
    simpa [insertAll] using hrest

theorem entries_ofList {entries : List (String × α)} (h : (entries.map Prod.fst).Nodup) :
    (ofList entries).entries = entries :=
  entries_insertAll (m := empty) h

theorem get?_insertAll {entries : List (String × α)} (h : name ∉ entries.map Prod.fst) :
    (m.insertAll entries).get? name = m.get? name := by
  induction entries generalizing m with
  | nil => rfl
  | cons e entries ih =>
    obtain ⟨hne, hrest⟩ := not_or.1 (mt List.mem_cons.2 h)
    have := ih (m := m.insert e.1 e.2) hrest
    rw [get?_insert, if_neg hne] at this
    exact this

/-- A name that only the first map has. -/
theorem get?_append (h : name ∉ other.names) : (m ++ other).get? name = m.get? name :=
  get?_insertAll h

/-! ## Corresponding entries -/

/-- The entries have the same name, and their values correspond. -/
def Corresponds (R : α → β → Prop) (e : String × α) (e' : String × β) : Prop :=
  e'.1 = e.1 ∧ R e.2 e'.2

section Corresponds

variable {R : α → β → Prop} {m' : OrderedMap β} {value' : β}

theorem names_eq_of_forall₂ {entries : List (String × α)} {entries' : List (String × β)}
    (h : List.Forall₂ (Corresponds R) entries entries') :
    entries'.map Prod.fst = entries.map Prod.fst := by
  induction h with
  | nil => rfl
  | cons he _ ih => rw [List.map_cons, List.map_cons, he.1, ih]

theorem forall₂_insert (name : String) (h : List.Forall₂ (Corresponds R) m.entries m'.entries)
    (hvalue : R value value') :
    List.Forall₂ (Corresponds R) (m.insert name value).entries (m'.insert name value').entries := by
  have hnames : m'.names = m.names := names_eq_of_forall₂ h
  by_cases hmem : name ∈ m.names
  · rw [entries_insert_of_mem hmem, entries_insert_of_mem (hnames ▸ hmem), replaced, replaced,
      List.forall₂_map_left_iff, List.forall₂_map_right_iff]
    refine h.imp fun e e' he => ?_
    rw [he.1]
    split
    · exact ⟨rfl, hvalue⟩
    · exact he
  · rw [entries_insert hmem, entries_insert (hnames ▸ hmem)]
    exact List.rel_append h (.cons ⟨rfl, hvalue⟩ .nil)

theorem forall₂_ofList {entries : List (String × α)} {entries' : List (String × β)}
    (h : List.Forall₂ (Corresponds R) entries entries') :
    List.Forall₂ (Corresponds R) (ofList entries).entries (ofList entries').entries := by
  suffices hall : ∀ (m : OrderedMap α) (m' : OrderedMap β),
      List.Forall₂ (Corresponds R) m.entries m'.entries →
      List.Forall₂ (Corresponds R) (m.insertAll entries).entries (m'.insertAll entries').entries from
    hall empty empty .nil
  induction h with
  | nil => exact fun _ _ hm => hm
  | @cons e e' _ _ he _ ih =>
    intro m m' hm
    have hinsert := forall₂_insert e.1 hm he.2
    exact ih (m.insert e.1 e.2) (m'.insert e'.1 e'.2) (he.1.symm ▸ hinsert)

end Corresponds

/-! ## Chosen names -/

theorem filter_replaced (p : String → Bool) (entries : List (String × α)) (name : String) (value : α) :
    (replaced entries name value).filter (fun e => p e.1) =
      replaced (entries.filter fun e => p e.1) name value := by
  rw [replaced, replaced, List.filter_map]
  congr 1
  apply List.filter_congr
  intro e _
  dsimp only [Function.comp_apply]
  split
  · rename_i heq
    rw [heq]
  · rfl

/-- Of the names that are chosen the map with one more entry has the same entries, with the new one if
its name is chosen. -/
theorem filter_insert {m' : OrderedMap α} {p : String → Bool} (name : String) (value : α)
    (h : m'.entries = m.entries.filter fun e => p e.1) :
    (m.insert name value).entries.filter (fun e => p e.1) =
      if p name then (m'.insert name value).entries else m'.entries := by
  have hmem : name ∈ m'.names ↔ name ∈ m.names ∧ p name = true := by
    rw [names, h, names, List.mem_map, List.mem_map]
    constructor
    · rintro ⟨e, he, rfl⟩
      obtain ⟨he, hname⟩ := List.mem_filter.1 he
      exact ⟨⟨e, he, rfl⟩, hname⟩
    · rintro ⟨⟨e, he, rfl⟩, hname⟩
      exact ⟨e, List.mem_filter.2 ⟨he, hname⟩, rfl⟩
  by_cases hold : name ∈ m.names
  · rw [entries_insert_of_mem hold, filter_replaced, ← h]
    split
    · rename_i hname
      rw [entries_insert_of_mem (hmem.2 ⟨hold, hname⟩)]
    · rename_i hname
      exact replaced_of_not_mem fun hmem' => hname (hmem.1 hmem').2
  · rw [entries_insert hold, List.filter_append, ← h]
    split
    · rename_i hname
      rw [entries_insert fun hmem' => hold (hmem.1 hmem').1]
      congr 1
      exact List.filter_cons_of_pos (p := fun e : String × α => p e.1) hname
    · rename_i hname
      have hnone : [(name, value)].filter (fun e => p e.1) = [] :=
        List.filter_cons_of_neg (p := fun e : String × α => p e.1) hname
      rw [hnone, List.append_nil]

/-- Names may be chosen before or after entries of one name are joined. -/
theorem entries_ofList_filter (p : String → Bool) (entries : List (String × α)) :
    (ofList (entries.filter fun e => p e.1)).entries =
      (ofList entries).entries.filter fun e => p e.1 := by
  suffices hall : ∀ m m' : OrderedMap α, m'.entries = m.entries.filter (fun e => p e.1) →
      (m'.insertAll (entries.filter fun e => p e.1)).entries =
        (m.insertAll entries).entries.filter fun e => p e.1 from
    hall empty empty rfl
  induction entries with
  | nil => exact fun _ _ h => h
  | cons e entries ih =>
    intro m m' h
    have hinsert := filter_insert e.1 e.2 h
    rw [List.filter_cons]
    split
    · rename_i hname
      rw [if_pos hname] at hinsert
      exact ih _ _ hinsert.symm
    · rename_i hname
      rw [if_neg hname] at hinsert
      exact ih _ _ hinsert.symm

/-! ## Changed values -/

@[simp] theorem names_map (f : String → α → β) (m : OrderedMap α) : (m.map f).names = m.names := by
  simp [names, map]

theorem get?_map (f : String → α → β) (m : OrderedMap α) (name : String) :
    (m.map f).get? name = (m.get? name).map (f name) := by
  have hlookup (entries : List (String × α)) :
      (entries.map fun e => (e.1, f e.1 e.2)).lookup name = (entries.lookup name).map (f name) := by
    induction entries with
    | nil => rfl
    | cons e entries ih =>
      rw [List.map_cons, lookup_cons_eq_if, lookup_cons_eq_if, ih]
      split <;> simp_all
  exact hlookup m.entries

theorem entries_map (f : String → α → β) (m : OrderedMap α) :
    (m.map f).entries = m.entries.map fun e => (e.1, f e.1 e.2) :=
  rfl

theorem map_insert (f : α → β) (m : OrderedMap α) (name : String) (value : α) :
    (m.insert name value).map (fun _ => f) = (m.map fun _ => f).insert name (f value) := by
  apply ext_entries
  rw [entries_map]
  have hnames : name ∈ (m.map fun _ => f).names ↔ name ∈ m.names := by rw [names_map]
  by_cases hmem : name ∈ m.names
  · rw [entries_insert_of_mem hmem, entries_insert_of_mem (hnames.2 hmem), entries_map, replaced,
      replaced, List.map_map, List.map_map]
    refine List.map_congr_left fun e _ => ?_
    dsimp only [Function.comp_apply]
    split <;> rfl
  · rw [entries_insert hmem, entries_insert (mt hnames.1 hmem), entries_map, List.map_append]
    rfl

theorem map_insertAll (f : α → β) (m : OrderedMap α) (entries : List (String × α)) :
    (m.insertAll entries).map (fun _ => f) =
      (m.map fun _ => f).insertAll (entries.map fun e => (e.1, f e.2)) := by
  induction entries generalizing m with
  | nil => rfl
  | cons e entries ih =>
    have hrest := ih (m.insert e.1 e.2)
    rw [map_insert] at hrest
    exact hrest

theorem map_append (f : α → β) (m other : OrderedMap α) :
    (m ++ other).map (fun _ => f) = (m.map fun _ => f) ++ other.map fun _ => f :=
  map_insertAll f m other.entries

end TypedClient.OrderedMap
