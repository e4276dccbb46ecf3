import TypedClient.Proofs.Repeats
import TypedClient.Schema.Document

/-!
# Declared properties

A list of properties in which a later declaration of a name takes the place of an earlier one. What
it comes to can be said without the steps: each name once, in the order of the first declarations, and
with what the last one says.
-/

namespace TypedClient.Schema

variable {declared more : List Property} {p q : Property} {name : String}

theorem mem_of_mem_declareProperty (h : p ∈ declareProperty declared q) :
    p = q ∨ p ∈ declared := by
  fun_induction declareProperty declared q with grind

theorem mem_declareProperty_self : q ∈ declareProperty declared q := by
  fun_induction declareProperty declared q with simp_all

theorem mem_declareProperty_of_ne (h : p ∈ declared) (hname : p.name ≠ q.name) :
    p ∈ declareProperty declared q := by
  fun_induction declareProperty declared q with grind

@[simp] theorem mem_names_declareProperty :
    name ∈ (declareProperty declared q).map (·.name) ↔
      name = q.name ∨ name ∈ declared.map (·.name) := by
  fun_induction declareProperty declared q with grind

theorem mem_names_foldl_declareProperty :
    name ∈ (more.foldl declareProperty declared).map (·.name) ↔
      name ∈ more.map (·.name) ∨ name ∈ declared.map (·.name) := by
  induction more generalizing declared with
  | nil => simp
  | cons q more ih =>
    rw [List.foldl_cons, ih, mem_names_declareProperty, List.map_cons, List.mem_cons, or_left_comm,
      or_assoc]

theorem mem_of_mem_foldl_declareProperty (h : p ∈ more.foldl declareProperty declared) :
    p ∈ more ∨ p ∈ declared := by
  induction more generalizing declared with
  | nil => exact .inr h
  | cons q more ih =>
    rcases ih h with h | h
    · exact .inl (List.mem_cons_of_mem _ h)
    · rcases mem_of_mem_declareProperty h with rfl | h
      · exact .inl List.mem_cons_self
      · exact .inr h

/-- A declaration stays where no later one has its name. -/
theorem mem_foldl_declareProperty_of_not_mem (h : p ∈ declared)
    (hname : p.name ∉ more.map (·.name)) : p ∈ more.foldl declareProperty declared := by
  induction more generalizing declared with
  | nil => exact h
  | cons q more ih =>
    obtain ⟨hne, hrest⟩ := not_or.1 (mt List.mem_cons.2 hname)
    exact ih (mem_declareProperty_of_ne h hne) hrest

/-- Of declarations with distinct names none is lost. -/
theorem mem_foldl_declareProperty (hdistinct : (more.map (·.name)).Nodup) (h : p ∈ more) :
    p ∈ more.foldl declareProperty declared := by
  induction more generalizing declared with
  | nil => exact absurd h List.not_mem_nil
  | cons q more ih =>
    obtain ⟨hnew, hdistinct⟩ := List.nodup_cons.1 hdistinct
    rcases List.mem_cons.1 h with rfl | h
    · rw [List.foldl_cons]
      exact mem_foldl_declareProperty_of_not_mem mem_declareProperty_self hnew
    · exact ih hdistinct h

/-! ## Each name once -/

/-- The last declaration of a name. -/
def lastDeclaration? (ps : List Property) (name : String) : Option Property :=
  ps.findRev? (·.name = name)

/-- Each name once, where it is declared first and as it is declared last. -/
def declaredOnce (ps : List Property) : List Property :=
  (ps.map (·.name)).eraseDups.filterMap (lastDeclaration? ps)

theorem name_of_lastDeclaration? (h : lastDeclaration? declared name = some p) : p.name = name := by
  rw [lastDeclaration?, List.findRev?_eq_find?_reverse] at h
  simpa using List.find?_some h

theorem isSome_lastDeclaration? :
    (lastDeclaration? declared name).isSome ↔ name ∈ declared.map (·.name) := by
  simp [lastDeclaration?, List.findRev?_eq_find?_reverse]

theorem lastDeclaration?_append : lastDeclaration? (declared ++ more) name =
    (lastDeclaration? more name).or (lastDeclaration? declared name) := by
  simp [lastDeclaration?, List.findRev?_eq_find?_reverse]

theorem lastDeclaration?_append_singleton : lastDeclaration? (declared ++ [q]) name =
    if q.name = name then some q else lastDeclaration? declared name := by
  rw [lastDeclaration?, findRev?_append_singleton, lastDeclaration?]
  simp only [decide_eq_true_eq]

theorem mem_of_lastDeclaration? (h : lastDeclaration? declared name = some p) : p ∈ declared := by
  rw [lastDeclaration?, List.findRev?_eq_find?_reverse] at h
  exact List.mem_reverse.1 (List.mem_of_find?_eq_some h)

theorem not_mem_of_lastDeclaration? (h : lastDeclaration? declared name = none) :
    name ∉ declared.map (·.name) := by
  rw [← isSome_lastDeclaration?, h]
  exact Bool.false_ne_true

/-- Of several lists the last one counts that has the name. -/
theorem lastDeclaration?_flatMap {α : Type} {as : List α} {f : α → List Property}
    (h : lastDeclaration? (as.flatMap f) name = some p) :
    ∃ before a after, as = before ++ a :: after ∧ lastDeclaration? (f a) name = some p ∧
      ∀ b ∈ after, name ∉ (f b).map (·.name) := by
  induction as using List.reverseRecOn with
  | nil => cases h
  | append_singleton as a ih =>
    rw [List.flatMap_append, List.flatMap_singleton, lastDeclaration?_append] at h
    cases hlast : lastDeclaration? (f a) name with
    | some q =>
      rw [hlast, Option.some_or] at h
      exact ⟨as, a, [], rfl, hlast.trans h, nofun⟩
    | none =>
      rw [hlast, Option.none_or] at h
      obtain ⟨before, a', after, rfl, hfound, hafter⟩ := ih h
      refine ⟨before, a', after ++ [a], by simp, hfound, fun b hb => ?_⟩
      rcases List.mem_append.1 hb with hb | hb
      · exact hafter b hb
      · exact List.mem_singleton.1 hb ▸ not_mem_of_lastDeclaration? hlast

theorem find?_eq_some_iff_of_nodup {α : Type} {key : α → String} {as : List α} {a : α}
    (h : (as.map key).Nodup) : as.find? (key · = name) = some a ↔ a ∈ as ∧ key a = name := by
  constructor
  · intro hfind
    exact ⟨List.mem_of_find?_eq_some hfind, by simpa using List.find?_some hfind⟩
  · rintro ⟨ha, rfl⟩
    have hsome : (as.find? (key · = key a)).isSome := List.find?_isSome.2 ⟨a, ha, by simp⟩
    obtain ⟨b, hb⟩ := Option.isSome_iff_exists.1 hsome
    have hkey : key b = key a := by simpa using List.find?_some hb
    rw [hb, List.inj_on_of_nodup_map h (List.mem_of_find?_eq_some hb) ha hkey]

/-- Where names are distinct, the last declaration of a name is the only one. -/
theorem lastDeclaration?_of_nodup (h : (declared.map (·.name)).Nodup) :
    lastDeclaration? declared name = declared.find? (·.name = name) := by
  have hreverse : (declared.reverse.map (·.name)).Nodup := by
    rwa [List.map_reverse, List.nodup_reverse]
  apply Option.ext
  intro p
  rw [lastDeclaration?, List.findRev?_eq_find?_reverse, find?_eq_some_iff_of_nodup hreverse,
    find?_eq_some_iff_of_nodup h, List.mem_reverse]

/-- The names are those of all declarations. -/
theorem names_declaredOnce (ps : List Property) :
    (declaredOnce ps).map (·.name) = (ps.map (·.name)).eraseDups := by
  have hall : ∀ names : List String, names ⊆ ps.map (·.name) →
      (names.filterMap (lastDeclaration? ps)).map (·.name) = names := by
    intro names hnames
    induction names with
    | nil => rfl
    | cons name names ih =>
      obtain ⟨hname, hnames⟩ := List.cons_subset.1 hnames
      obtain ⟨p, hp⟩ := Option.isSome_iff_exists.1 (isSome_lastDeclaration?.2 hname)
      rw [List.filterMap_cons_some hp, List.map_cons, ih hnames, name_of_lastDeclaration? hp]
  exact hall _ fun name hname => List.mem_eraseDups.1 hname

theorem nodup_names_declaredOnce (ps : List Property) :
    ((declaredOnce ps).map (·.name)).Nodup := by
  rw [names_declaredOnce]
  exact nodup_eraseDups _

/-- Under each name the last declaration is found. -/
theorem find?_declaredOnce (ps : List Property) :
    (declaredOnce ps).find? (·.name = name) = lastDeclaration? ps name := by
  apply Option.ext
  intro p
  rw [find?_eq_some_iff_of_nodup (nodup_names_declaredOnce ps), declaredOnce, List.mem_filterMap]
  constructor
  · rintro ⟨⟨key, -, hp⟩, rfl⟩
    rwa [name_of_lastDeclaration? hp]
  · intro hp
    have hname := isSome_lastDeclaration?.1 (Option.isSome_iff_exists.2 ⟨p, hp⟩)
    exact ⟨⟨name, List.mem_eraseDups.2 hname, hp⟩, name_of_lastDeclaration? hp⟩

theorem lastDeclaration?_declaredOnce (ps : List Property) :
    lastDeclaration? (declaredOnce ps) name = lastDeclaration? ps name := by
  rw [lastDeclaration?_of_nodup (nodup_names_declaredOnce ps), find?_declaredOnce]

theorem lastDeclaration?_of_mem {ps : List Property} (h : p ∈ declaredOnce ps) :
    lastDeclaration? ps p.name = some p := by
  rw [← find?_declaredOnce, find?_eq_some_iff_of_nodup (nodup_names_declaredOnce ps)]
  exact ⟨h, rfl⟩

/-- One more declaration of a name replaces what is found under it, or comes last. -/
theorem declareProperty_filterMap {names : List String} {find : String → Option Property}
    (hfind : ∀ name ∈ names, ∃ p, find name = some p ∧ p.name = name) (hdistinct : names.Nodup) :
    declareProperty (names.filterMap find) q =
      (if q.name ∈ names then names else names ++ [q.name]).filterMap
        fun name => if q.name = name then some q else find name := by
  induction names with
  | nil => simp [declareProperty]
  | cons name names ih =>
    obtain ⟨p, hp, rfl⟩ := hfind name List.mem_cons_self
    obtain ⟨hnew, hdistinct⟩ := List.nodup_cons.1 hdistinct
    have ih := ih (fun key hkey => hfind key (List.mem_cons_of_mem _ hkey)) hdistinct
    rw [List.filterMap_cons_some hp, declareProperty]
    by_cases hname : p.name = q.name
    · have hrest : names.filterMap (fun key => if q.name = key then some q else find key) =
          names.filterMap find := by
        apply List.filterMap_congr
        intro key hkey
        rw [if_neg]
        rintro rfl
        exact hnew (hname ▸ hkey)
      simp [hname, hrest]
    · have hname' : q.name ≠ p.name := Ne.symm hname
      rw [if_neg hname, ih]
      by_cases hmem : q.name ∈ names <;> simp [hname', hmem, hp]

/-- Declaring properties one after the other comes to each name once. -/
theorem foldl_declareProperty (ps : List Property) :
    ps.foldl declareProperty [] = declaredOnce ps := by
  induction ps using List.reverseRecOn with
  | nil => rfl
  | append_singleton ps q ih =>
    have hfind : ∀ name ∈ (ps.map (·.name)).eraseDups,
        ∃ p, lastDeclaration? ps name = some p ∧ p.name = name := by
      intro name hname
      obtain ⟨p, hp⟩ := Option.isSome_iff_exists.1
        (isSome_lastDeclaration?.2 (List.mem_eraseDups.1 hname))
      exact ⟨p, hp, name_of_lastDeclaration? hp⟩
    have hlast : lastDeclaration? (ps ++ [q]) =
        fun name => if q.name = name then some q else lastDeclaration? ps name :=
      funext fun _ => lastDeclaration?_append_singleton
    rw [List.foldl_append, List.foldl_cons, List.foldl_nil, ih, declaredOnce,
      declareProperty_filterMap hfind (nodup_eraseDups _), declaredOnce, List.map_append,
      List.map_singleton, eraseDups_append_singleton, hlast]
    simp only [List.mem_eraseDups]

/-- What a declaration says does not count where a later one has its name. -/
theorem declaredOnce_shadowed {front after : List Property} (hname : q.name = p.name)
    (h : p.name ∈ after.map (·.name)) :
    declaredOnce (front ++ q :: after) = declaredOnce (front ++ p :: after) := by
  have hlast : lastDeclaration? (front ++ q :: after) = lastDeclaration? (front ++ p :: after) := by
    funext name
    rw [List.append_cons, lastDeclaration?_append, lastDeclaration?_append_singleton, List.append_cons,
      lastDeclaration?_append, lastDeclaration?_append_singleton, hname]
    by_cases heq : p.name = name
    · obtain ⟨last, hlast⟩ := Option.isSome_iff_exists.1 (isSome_lastDeclaration?.2 h)
      rw [← heq, hlast, Option.some_or, Option.some_or]
    · rw [if_neg heq, if_neg heq]
  rw [declaredOnce, declaredOnce, hlast, List.map_append, List.map_append, List.map_cons,
    List.map_cons, hname]

end TypedClient.Schema
