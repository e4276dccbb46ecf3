import Mathlib.Data.List.Basic
import TypedClient.Files.Path

/-!
# Parts of paths

The path of an entry of a directory has the parts of the path of the directory, and the name of the
entry after them.
-/

namespace TypedClient.Path

variable {directory name : String} {cs ds : List Char}

/-- A name that a directory can have an entry under. -/
structure IsName (name : String) : Prop where
  nonempty : name.toList ≠ []
  slash_not_mem : '/' ∉ name.toList
  ne_dot : name ≠ "."
  ne_dots : name ≠ ".."

theorem endsWith_slash_iff {s : String} : s.endsWith "/" = true ↔ ['/'] <:+ s.toList := by
  rw [← String.endsWith_toSlice, String.Slice.endsWith_string_iff, String.copy_toSlice]
  rfl

/-- As `parts`, of the characters of a path. -/
def partsOf (cs : List Char) : List String :=
  ((cs.splitOn '/').filter (!·.isEmpty)).map String.ofList

theorem partsOf_append_slash (cs ds : List Char) :
    partsOf (cs ++ '/' :: ds) = partsOf cs ++ partsOf ds := by
  rw [partsOf, List.splitOn_append_cons_self, List.filter_append, List.map_append]
  rfl

theorem partsOf_name (h : IsName name) : partsOf name.toList = [name] := by
  have hnonempty : name.toList.isEmpty = false := List.isEmpty_eq_false_iff.2 h.nonempty
  rw [partsOf, List.splitOn_eq_singleton h.slash_not_mem]
  simp [hnonempty]

theorem partsOf_slash (cs : List Char) : partsOf (cs ++ ['/']) = partsOf cs :=
  (partsOf_append_slash cs []).trans (List.append_nil _)

theorem parts_join (h : IsName name) : parts (join directory name) = parts directory ++ [name] := by
  change partsOf _ = partsOf _ ++ _
  by_cases hempty : directory = ""
  · subst hempty
    rw [join, if_pos (by decide), String.empty_append, partsOf_name h]
    rfl
  by_cases hslash : directory.endsWith "/" = true
  · obtain ⟨cs, hcs⟩ := endsWith_slash_iff.1 hslash
    rw [join, if_pos (by simp [hslash]), String.toList_append, ← hcs, List.append_assoc,
      List.singleton_append, partsOf_append_slash, partsOf_name h, partsOf_slash]
  · have hjoin : (join directory name).toList = directory.toList ++ '/' :: name.toList := by
      rw [join, if_neg (by simp [hempty, hslash]), String.toList_append, String.toList_append,
        List.append_assoc]
      rfl
    rw [hjoin, partsOf_append_slash, partsOf_name h]

theorem isAbsolute_join (h : IsName name) :
    isAbsolute (join directory name) = isAbsolute directory := by
  by_cases hempty : directory = ""
  · subst hempty
    have hhead : name.toList.head? ≠ some '/' := fun hslash =>
      h.slash_not_mem (List.mem_of_head? hslash)
    rw [join, if_pos (by decide), String.empty_append, isAbsolute, beq_eq_false_iff_ne.2 hhead]
    rfl
  · have hhead (s : String) : (directory ++ s).toList.head? = directory.toList.head? := by
      rw [String.toList_append, List.head?_append_of_ne_nil]
      simpa using hempty
    rw [isAbsolute, isAbsolute, join]
    split
    · rw [hhead]
    · rw [String.append_assoc, hhead]

theorem endsWith_slash_join (h : IsName name) : (join directory name).endsWith "/" = false := by
  rw [Bool.eq_false_iff]
  intro hslash
  obtain ⟨cs, hcs⟩ : ∃ cs, (join directory name).toList = cs ++ name.toList := by
    rw [join]
    split
    · exact ⟨_, String.toList_append⟩
    · exact ⟨_, String.toList_append⟩
  obtain ⟨ds, hds⟩ := endsWith_slash_iff.1 hslash
  have hlast : name.toList.getLast? = some '/' := by
    rw [hcs] at hds
    have hlast := congrArg List.getLast? hds
    rwa [List.getLast?_concat, List.getLast?_append_of_ne_nil _ h.nonempty, eq_comm] at hlast
  exact h.slash_not_mem (List.mem_of_getLast? hlast)

theorem join_ne_empty (h : IsName name) (directory : String) : join directory name ≠ "" := by
  intro hempty
  have hparts : parts (join directory name) = parts directory ++ [name] := parts_join h
  rw [hempty] at hparts
  exact List.append_ne_nil_of_right_ne_nil _ (List.cons_ne_nil _ _) hparts.symm

end TypedClient.Path
