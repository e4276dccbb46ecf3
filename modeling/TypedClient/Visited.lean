/-! # Visited names

A walk that visits no name twice comes to an end. What bounds it is the weight of the names that it
has not visited yet.
-/

namespace TypedClient

variable {α : Type} [DecidableEq α]

/-- The weight of those of the names that are not visited yet. -/
def unvisited (weight : α → Nat) (visited : List α) : List α → Nat
  | []            => 0
  | name :: names => (if name ∈ visited then 0 else weight name) + unvisited weight visited names

theorem unvisited_cons_le (weight : α → Nat) (visited names : List α) (name : α) :
    unvisited weight (name :: visited) names ≤ unvisited weight visited names := by
  induction names with
  | nil => exact Nat.le_refl _
  | cons n ns ih =>
    simp only [unvisited]
    split
    · omega
    · rename_i hn
      have hn : n ∉ visited := fun h => hn (List.mem_cons_of_mem _ h)
      simp only [hn, if_false]
      omega

/-- Visiting a new name takes its weight away. -/
theorem unvisited_cons_add_le (weight : α → Nat) {visited names : List α} {name : α}
    (hmem : name ∈ names) (hnew : name ∉ visited) :
    unvisited weight (name :: visited) names + weight name ≤ unvisited weight visited names := by
  induction names with
  | nil => exact absurd hmem List.not_mem_nil
  | cons n ns ih =>
    have hle := unvisited_cons_le weight visited ns name
    simp only [unvisited]
    rcases List.mem_cons.1 hmem with rfl | hmem
    · simp only [List.mem_cons_self, if_true, hnew, if_false]
      omega
    · have := ih hmem
      by_cases hn : n ∈ visited
      · simp only [List.mem_cons_of_mem _ hn, hn, if_true]
        omega
      · simp only [hn, if_false]
        split <;> omega

end TypedClient
