import TypedClient.Files.Tree
import TypedClient.Proofs.Files.Path
import TypedClient.Proofs.OrderedMap
import TypedClient.Proofs.Run

/-!
# Reading and writing

What a path leads to depends only on which places are directories. Writing a file changes none of
them, so that it changes what stands at one place and nothing else.
-/

namespace TypedClient.FileTree

variable {t t' t'' : FileTree} {place place' : List String} {parts parts' : List String}
  {path directory name text : String} {e : FileEntry}

/-! ## One place -/

theorem get?_set (hplace : place ≠ []) (t : FileTree) (e : FileEntry) (q : List String) :
    (t.set place e).get? q = if q = place then some e else t.get? q := by
  have hempty : (t.set place e).get? [] = t.get? [] := rfl
  by_cases hq : q = []
  · subst hq
    rw [hempty, if_neg hplace.symm]
  have hget (t : FileTree) : t.get? q = t.entries.lookup q := if_neg (by simpa using hq)
  rw [hget, hget, set]
  split
  · rename_i hmem
    obtain ⟨old, hold⟩ := Option.isSome_iff_exists.1 hmem
    have hmem := List.mem_map_of_mem (f := Prod.fst) (OrderedMap.mem_of_lookup_eq_some hold)
    rw [OrderedMap.lookup_map_replace]
    simp only [hmem, and_true]
  · rename_i hnone
    rw [List.lookup_append, OrderedMap.lookup_cons_eq_if]
    by_cases hqp : q = place
    · subst hqp
      simp [Option.not_isSome_iff_eq_none.1 hnone]
    · simp [hqp]

theorem get?_set_self (hplace : place ≠ []) (t : FileTree) (e : FileEntry) :
    (t.set place e).get? place = some e := by rw [get?_set hplace, if_pos rfl]

@[simp] theorem current_set (t : FileTree) (place : List String) (e : FileEntry) :
    (t.set place e).current = t.current := by
  rw [set]
  split <;> rfl

theorem beq_directory_iff {e : Option FileEntry} :
    (e == some .directory) = true ↔ e = some .directory := by
  rcases e with _ | _ | _
  · exact iff_of_false nofun nofun
  · exact iff_of_true rfl rfl
  · exact iff_of_false nofun nofun

/-! ## Following -/

/-- Where a part of a path leads from a directory. -/
def move (place : List String) (part : String) : List String :=
  if part = "." then place else if part = ".." then place.dropLast else place ++ [part]

theorem follow_cons_eq_ok_iff {part : String} : t.follow place (part :: parts) = .ok place' ↔
    t.get? place = some .directory ∧ t.follow (move place part) parts = .ok place' := by
  rw [follow, move]
  split
  · simp [*]
  · simp [*]
  · rename_i hdirectory
    simp only [hdirectory, true_and]
    split
    · rfl
    · split <;> rfl

theorem follow_append_eq_ok_iff : t.follow place (parts ++ parts') = .ok place' ↔
    ∃ mid, t.follow place parts = .ok mid ∧ t.follow mid parts' = .ok place' := by
  induction parts generalizing place with
  | nil => simp [follow]
  | cons part parts ih =>
    simp only [List.cons_append, follow_cons_eq_ok_iff, ih, exists_and_left, and_assoc]

/-- The path leads to the place, whatever stands there. -/
def Names (t : FileTree) (path : String) (place : List String) : Prop :=
  t.follow (t.start path) (Path.parts path) = .ok place

/-- The path leads to a directory. -/
def Opens (t : FileTree) (path : String) (place : List String) : Prop :=
  t.Names path place ∧ t.get? place = some .directory

theorem follow_dot_eq_ok_iff : t.follow place (parts ++ ["."]) = .ok place' ↔
    t.follow place parts = .ok place' ∧ t.get? place' = some .directory := by
  rw [follow_append_eq_ok_iff]
  constructor
  · rintro ⟨mid, hmid, hdot⟩
    obtain ⟨hdirectory, hmove⟩ := follow_cons_eq_ok_iff.1 hdot
    cases hmove
    exact ⟨hmid, hdirectory⟩
  · rintro ⟨hplace, hdirectory⟩
    exact ⟨place', hplace, follow_cons_eq_ok_iff.2 ⟨hdirectory, rfl⟩⟩

section Join

variable {name : String} (hname : Path.IsName name)

include hname

theorem start_join (t : FileTree) (directory : String) :
    t.start (Path.join directory name) = t.start directory := by
  rw [start, start, Path.isAbsolute_join hname]

theorem move_name (place : List String) : move place name = place ++ [name] := by
  rw [move, if_neg hname.ne_dot, if_neg hname.ne_dots]

/-- An entry of a directory stands right below it. -/
theorem names_join_iff : t.Names (Path.join directory name) place ↔
    ∃ dir, t.Opens directory dir ∧ place = dir ++ [name] := by
  rw [Names, start_join hname, Path.parts_join hname, follow_append_eq_ok_iff]
  constructor
  · rintro ⟨dir, hdir, hplace⟩
    obtain ⟨hdirectory, hmove⟩ := follow_cons_eq_ok_iff.1 hplace
    rw [move_name hname] at hmove
    cases hmove
    exact ⟨dir, ⟨hdir, hdirectory⟩, rfl⟩
  · rintro ⟨dir, ⟨hdir, hdirectory⟩, rfl⟩
    refine ⟨dir, hdir, follow_cons_eq_ok_iff.2 ⟨hdirectory, ?_⟩⟩
    rw [move_name hname]
    rfl

theorem locate_join_eq_ok_iff {last : String} :
    t.locate (Path.join directory name) = .ok (place, last) ↔
      t.Opens directory place ∧ last = name := by
  simp only [locate, Path.parts_join hname, List.getLast?_concat, List.dropLast_concat,
    start_join hname, bind_eq_ok_iff, follow_dot_eq_ok_iff, Except.ok.injEq, Prod.mk.injEq]
  constructor
  · rintro ⟨dir, hdir, rfl, rfl⟩
    exact ⟨hdir, rfl⟩
  · rintro ⟨hdir, rfl⟩
    exact ⟨place, hdir, rfl, rfl⟩

/-- A file is written if its place is not one of a directory. Nothing else changes. -/
theorem write_join_eq_ok_iff : t.write (Path.join directory name) text = .ok t' ↔
    ∃ dir, t.Opens directory dir ∧ t.get? (dir ++ [name]) ≠ some .directory ∧
      t' = t.set (dir ++ [name]) (.file text.toUTF8) := by
  simp only [write, bind_eq_ok_iff, Prod.exists, locate_join_eq_ok_iff hname]
  constructor
  · rintro ⟨dir, _, ⟨hdir, rfl⟩, hwrite⟩
    split at hwrite
    · cases hwrite
    · rename_i hplace
      cases hwrite
      rw [not_or, not_or, beq_directory_iff] at hplace
      exact ⟨dir, hdir, hplace.2.2, rfl⟩
  · rintro ⟨dir, hdir, hplace, rfl⟩
    refine ⟨dir, name, ⟨hdir, rfl⟩, ?_⟩
    rw [if_neg]
    simp [hname.ne_dot, hname.ne_dots, beq_directory_iff, hplace]

/-- What is written can be read. -/
theorem read_join (hplace : t.Names (Path.join directory name) place)
    (hfile : t.get? place = some (.file text.toUTF8)) :
    t.read (Path.join directory name) = .ok text := by
  have hnonempty : (Path.join directory name).isEmpty = false := by
    simpa using Path.join_ne_empty hname directory
  have hfind : t.find (Path.join directory name) = .ok (.file text.toUTF8) := by
    simp only [find, hnonempty, Path.endsWith_slash_join hname, Bool.false_eq_true, if_false,
      List.append_nil]
    exact bind_eq_ok_iff.2 ⟨place, hplace, by rw [hfile]⟩
  have hutf8 : String.fromUTF8? text.toUTF8 = some text :=
    dif_pos (show text.toUTF8.IsValidUTF8 from text.isValidUTF8)
  rw [read, hfind]
  simp only [hutf8]

end Join

/-! ## Directories -/

/-- The same places are directories, so that all paths lead to the same places. -/
structure SameDirectories (t t' : FileTree) : Prop where
  current : t'.current = t.current
  directory_iff : ∀ place, t'.get? place = some .directory ↔ t.get? place = some .directory

namespace SameDirectories

theorem refl (t : FileTree) : SameDirectories t t := ⟨rfl, fun _ => Iff.rfl⟩

theorem trans (h : SameDirectories t t') (h' : SameDirectories t' t'') : SameDirectories t t'' :=
  ⟨h'.current.trans h.current, fun place => (h'.directory_iff place).trans (h.directory_iff place)⟩

theorem follow_eq_ok_iff (h : SameDirectories t t') :
    t'.follow place parts = .ok place' ↔ t.follow place parts = .ok place' := by
  induction parts generalizing place with
  | nil => rfl
  | cons part parts ih => rw [follow_cons_eq_ok_iff, follow_cons_eq_ok_iff, h.directory_iff, ih]

theorem names_iff (h : SameDirectories t t') : t'.Names path place ↔ t.Names path place := by
  rw [Names, Names, start, start, h.current, h.follow_eq_ok_iff]

end SameDirectories

/-- Putting a file where there is no directory keeps all directories. -/
theorem sameDirectories_set (hnonempty : place ≠ []) (hplace : t.get? place ≠ some .directory)
    (content : ByteArray) : SameDirectories t (t.set place (.file content)) := by
  refine ⟨current_set .., fun q => ?_⟩
  rw [get?_set hnonempty]
  split
  · rename_i hq
    subst hq
    -- no directory stands at the place, neither before nor after
    exact iff_of_false nofun hplace
  · rfl

/-! ## Making directories -/

/-- Nothing is changed but that directories are added. -/
structure AddsDirectories (t t' : FileTree) : Prop where
  current : t'.current = t.current
  get? : ∀ place, t'.get? place = t.get? place ∨
    t.get? place = none ∧ t'.get? place = some .directory

namespace AddsDirectories

theorem refl (t : FileTree) : AddsDirectories t t := ⟨rfl, fun _ => .inl rfl⟩

theorem trans (h : AddsDirectories t t') (h' : AddsDirectories t' t'') : AddsDirectories t t'' := by
  refine ⟨h'.current.trans h.current, fun place => ?_⟩
  rcases h.get? place with heq | ⟨hnone, hnew⟩ <;> rcases h'.get? place with heq' | ⟨hnone', hnew'⟩
  · exact .inl (heq'.trans heq)
  · exact .inr ⟨heq.symm.trans hnone', hnew'⟩
  · exact .inr ⟨hnone, heq'.trans hnew⟩
  · cases hnew.symm.trans hnone'

theorem makeDirectory (h : t.makeDirectory path = .ok t') : AddsDirectories t t' := by
  obtain ⟨⟨place, last⟩, -, h⟩ := bind_eq_ok_iff.1 h
  dsimp only at h
  split at h
  · cases h
  · rename_i hfree
    cases h
    refine ⟨current_set .., fun q => ?_⟩
    rw [get?_set (by simp)]
    split
    · rename_i hq
      subst hq
      rw [not_or, not_or, Option.not_isSome_iff_eq_none] at hfree
      exact .inr ⟨hfree.2.2, rfl⟩
    · exact .inl rfl

theorem makeAll (t : FileTree) (paths : List String) : AddsDirectories t (t.makeAll paths).2 := by
  fun_induction FileTree.makeAll t paths with
  | case1 => exact .refl _
  | case2 => exact .refl _
  | case3 _ _ _ _ hmake => exact .makeDirectory hmake
  | case4 _ _ _ _ _ _ hrest ih => rwa [hrest] at ih
  | case5 _ _ _ _ _ _ hrest _ hmake ih =>
    rw [hrest] at ih
    exact ih.trans (.makeDirectory hmake)
  | case6 _ _ _ _ _ _ _ hrest _ _ ih => rwa [hrest] at ih
  | case7 => exact .refl t

theorem createDirectories (t : FileTree) (path : String) :
    AddsDirectories t (t.createDirectories path).2 :=
  makeAll t _

theorem get?_eq_some (h : AddsDirectories t t') (he : t.get? place = some e) :
    t'.get? place = some e := by
  rcases h.get? place with heq | ⟨hnone, -⟩
  · rw [heq, he]
  · cases hnone.symm.trans he

theorem follow_eq_ok (h : AddsDirectories t t') (hfollow : t.follow place parts = .ok place') :
    t'.follow place parts = .ok place' := by
  induction parts generalizing place with
  | nil => exact hfollow
  | cons part parts ih =>
    obtain ⟨hdirectory, hrest⟩ := follow_cons_eq_ok_iff.1 hfollow
    exact follow_cons_eq_ok_iff.2 ⟨h.get?_eq_some hdirectory, ih hrest⟩

theorem find_eq_ok (h : AddsDirectories t t') (hfind : t.find path = .ok e) :
    t'.find path = .ok e := by
  unfold find at hfind ⊢
  split at hfind
  · cases hfind
  · rename_i hnonempty
    obtain ⟨place, hplace, hget⟩ := bind_eq_ok_iff.1 hfind
    rw [if_neg hnonempty, start, h.current]
    refine bind_eq_ok_iff.2 ⟨place, h.follow_eq_ok hplace, ?_⟩
    split at hget
    · rename_i e' he
      cases hget
      rw [h.get?_eq_some he]
    · cases hget

/-- What can be read can be read as before. -/
theorem read_eq_ok (h : AddsDirectories t t') (hread : t.read path = .ok text) :
    t'.read path = .ok text := by
  cases hfind : t.find path with
  | error e => rw [read, hfind] at hread; cases hread
  | ok e => rwa [read, h.find_eq_ok hfind, ← hfind]

end AddsDirectories

end TypedClient.FileTree
