/-! # Searching a graph

Whether a node can be reached along edges, passing only through given nodes.
-/

namespace TypedClient

variable {α : Type} [DecidableEq α]

/-- Taking a node away takes away its successors. -/
theorem length_flatMap_erase (next : α → List α) {a : α} {as : List α} (h : a ∈ as) :
    (next a).length + ((as.erase a).flatMap next).length = (as.flatMap next).length := by
  induction as with
  | nil => exact absurd h List.not_mem_nil
  | cons b as ih =>
    by_cases hab : b = a
    · simp [hab]
    · have := ih ((List.mem_cons.1 h).resolve_left fun heq => hab heq.symm)
      rw [List.erase_cons_tail (by simpa using hab)]
      simp only [List.flatMap_cons, List.length_append]
      omega

/-- Searches for `goal` among `pending` and what can be reached from there. A search passes through
the nodes of `unseen` only, through each of them once. -/
def reaches (next : α → List α) (goal : α) (unseen pending : List α) : Bool :=
  match pending with
  | [] => false
  | node :: rest =>
    if node = goal then true
    else if _h : node ∈ unseen then reaches next goal (unseen.erase node) (next node ++ rest)
    else reaches next goal unseen rest
termination_by pending.length + (unseen.flatMap next).length
decreasing_by
  · have := length_flatMap_erase next _h
    simp only [List.length_append, List.length_cons]
    omega
  · simp

end TypedClient
