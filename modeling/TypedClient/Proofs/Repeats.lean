import Mathlib.Data.List.Induction
import Mathlib.Data.List.Nodup

/-!
# Repeated items

Where an item of a list counts as one that stands further ahead, there are two to choose from. The last
one is found from the end of the list, and the first one stays when repeated items are dropped.
-/

namespace TypedClient

variable {α β : Type}

theorem findRev?_append_singleton (p : α → Bool) (as : List α) (a : α) :
    (as ++ [a]).findRev? p = if p a then some a else as.findRev? p := by
  rw [List.findRev?_eq_find?_reverse, List.findRev?_eq_find?_reverse, List.reverse_append]
  cases h : p a <;> simp [h]

theorem findRev?_map (p : β → Bool) (f : α → β) (as : List α) :
    (as.map f).findRev? p = (as.findRev? (p ∘ f)).map f := by
  rw [List.findRev?_eq_find?_reverse, List.findRev?_eq_find?_reverse, ← List.map_reverse,
    List.find?_map]

theorem eraseDupsBy_append_singleton (r : α → α → Bool) (as : List α) (a : α) :
    (as ++ [a]).eraseDupsBy r =
      if (as.eraseDupsBy r).any (r a) then as.eraseDupsBy r else as.eraseDupsBy r ++ [a] := by
  -- `seen` holds what is kept so far, last first
  suffices hloop : ∀ seen, List.eraseDupsBy.loop r (as ++ [a]) seen =
      if (List.eraseDupsBy.loop r as seen).any (r a) then List.eraseDupsBy.loop r as seen
      else List.eraseDupsBy.loop r as seen ++ [a] from hloop []
  intro seen
  induction as generalizing seen with
  | nil => cases hseen : seen.any (r a) <;> simp [List.eraseDupsBy.loop, hseen]
  | cons b as ih =>
    cases hseen : seen.any (r b) <;> simp only [List.cons_append, List.eraseDupsBy.loop, hseen, ih]

section LawfulBEq

variable [BEq α] [LawfulBEq α]

theorem eraseDups_append_singleton (as : List α) (a : α) :
    (as ++ [a]).eraseDups = if a ∈ as then as.eraseDups else as.eraseDups ++ [a] := by
  have hany : (as.eraseDups.any (a == ·)) = true ↔ a ∈ as := by simp
  rw [List.eraseDups, eraseDupsBy_append_singleton, ← List.eraseDups]
  simp only [hany]

theorem nodup_eraseDups (as : List α) : as.eraseDups.Nodup := by
  induction as using List.reverseRecOn with
  | nil => exact List.nodup_nil
  | append_singleton as a ih =>
    rw [eraseDups_append_singleton]
    split
    · exact ih
    · rename_i hnew
      simp only [List.nodup_append, ih, List.mem_eraseDups, List.mem_singleton, true_and]
      refine ⟨List.nodup_singleton a, ?_⟩
      rintro b hb _ rfl rfl
      exact hnew hb

end LawfulBEq

end TypedClient
