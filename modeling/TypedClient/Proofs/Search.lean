import Mathlib.Logic.Relation
import TypedClient.Search

/-!
# What a search finds

A search ends after as many passes as there are pending nodes and edges. It answers whether its goal
can be reached from one of the pending nodes by edges whose sources are unseen. The seen nodes are left
out of the relation, and not kept in an invariant: a way that passes through a node can be cut at its last
visit there, so that marking a node as seen loses nothing once its successors are pending.
-/

open Relation

namespace TypedClient

variable {α : Type}

/-- An edge that leaves a node of `unseen`. -/
def EdgeFrom (next : α → List α) (unseen : List α) (a b : α) : Prop :=
  a ∈ unseen ∧ b ∈ next a

section Cut

variable {next : α → List α} {unseen unseen' : List α} {node goal : α}

theorem EdgeFrom.mono (h : unseen ⊆ unseen') {a b : α} (hab : EdgeFrom next unseen a b) :
    EdgeFrom next unseen' a b :=
  ⟨h hab.1, hab.2⟩

/-- Cuts a way at the last time it leaves `node`. -/
theorem cut_at_last [DecidableEq α] (node : α) {a : α}
    (h : ReflTransGen (EdgeFrom next unseen) a goal) :
    ReflTransGen (EdgeFrom next (unseen.erase node)) a goal ∨
      ∃ b ∈ next node, ReflTransGen (EdgeFrom next (unseen.erase node)) b goal := by
  induction h using ReflTransGen.head_induction_on with
  | refl => exact .inl .refl
  | @head a b hab _ ih =>
    rcases ih with ih | ih
    · by_cases ha : a = node
      · exact .inr ⟨b, ha ▸ hab.2, ih⟩
      · exact .inl (.head ⟨(List.mem_erase_of_ne ha).2 hab.1, hab.2⟩ ih)
    · exact .inr ih

/-- A way from a node that is seen ends where it starts. -/
theorem eq_of_seen (hseen : node ∉ unseen)
    (h : ReflTransGen (EdgeFrom next unseen) node goal) : node = goal := by
  cases h using ReflTransGen.head_induction_on with
  | refl => rfl
  | head hab _ => exact absurd hab.1 hseen

end Cut

variable [DecidableEq α]

theorem reaches_iff (next : α → List α) (goal : α) (unseen pending : List α) :
    reaches next goal unseen pending = true ↔
      ∃ p ∈ pending, ReflTransGen (EdgeFrom next unseen) p goal := by
  fun_induction reaches next goal unseen pending with
  | case1 => simp
  | case2 unseen rest => exact ⟨fun _ => ⟨goal, List.mem_cons_self, .refl⟩, fun _ => rfl⟩
  | case3 unseen node rest hgoal hunseen ih =>
    rw [ih]
    constructor
    · rintro ⟨p, hp, hway⟩
      have hway' := ReflTransGen.mono (fun _ _ => EdgeFrom.mono List.erase_subset) _ _ hway
      rcases List.mem_append.1 hp with hp | hp
      · exact ⟨node, List.mem_cons_self, .head ⟨hunseen, hp⟩ hway'⟩
      · exact ⟨p, List.mem_cons_of_mem _ hp, hway'⟩
    · rintro ⟨p, hp, hway⟩
      rcases List.mem_cons.1 hp with rfl | hp
      · -- the way leaves the node for the last time by one of its edges
        obtain h | ⟨b, hb, h⟩ := cut_at_last p hway
        · cases h using ReflTransGen.head_induction_on with
          | refl => exact absurd rfl hgoal
          | @head _ b hab hrest => exact ⟨b, List.mem_append_left _ hab.2, hrest⟩
        · exact ⟨b, List.mem_append_left _ hb, h⟩
      · obtain h | ⟨b, hb, h⟩ := cut_at_last node hway
        · exact ⟨p, List.mem_append_right _ hp, h⟩
        · exact ⟨b, List.mem_append_left _ hb, h⟩
  | case4 unseen node rest hgoal hunseen ih =>
    rw [ih]
    constructor
    · rintro ⟨p, hp, hway⟩
      exact ⟨p, List.mem_cons_of_mem _ hp, hway⟩
    · rintro ⟨p, hp, hway⟩
      rcases List.mem_cons.1 hp with rfl | hp
      · exact absurd (eq_of_seen hunseen hway) hgoal
      · exact ⟨p, hp, hway⟩

/-! ## The passes of a search -/

/-- A search gives the answer `found` after `n` passes, each of which takes up the first pending node. -/
inductive SearchRun (next : α → List α) (goal : α) : List α → List α → Nat → Bool → Prop
  | exhausted {unseen : List α} : SearchRun next goal unseen [] 0 false
  | reached {unseen rest : List α} : SearchRun next goal unseen (goal :: rest) 1 true
  | passed {unseen rest : List α} {node : α} {n : Nat} {found : Bool} (hgoal : node ≠ goal)
      (hunseen : node ∈ unseen)
      (hrest : SearchRun next goal (unseen.erase node) (next node ++ rest) n found) :
      SearchRun next goal unseen (node :: rest) (n + 1) found
  | skipped {unseen rest : List α} {node : α} {n : Nat} {found : Bool} (hgoal : node ≠ goal)
      (hseen : node ∉ unseen) (hrest : SearchRun next goal unseen rest n found) :
      SearchRun next goal unseen (node :: rest) (n + 1) found

/-- A node becomes pending once for each edge that leads to it, and its own edges count once. -/
theorem exists_searchRun (next : α → List α) (goal : α) (unseen pending : List α) :
    ∃ n ≤ pending.length + (unseen.flatMap next).length,
      SearchRun next goal unseen pending n (reaches next goal unseen pending) := by
  fun_induction reaches next goal unseen pending with
  | case1 unseen => exact ⟨0, Nat.zero_le _, .exhausted⟩
  | case2 unseen rest => exact ⟨1, by simp only [List.length_cons]; omega, .reached⟩
  | case3 unseen node rest hgoal hunseen ih =>
    obtain ⟨n, hn, hrun⟩ := ih
    have hedges := length_flatMap_erase next hunseen
    refine ⟨n + 1, ?_, .passed hgoal hunseen hrun⟩
    simp only [List.length_append, List.length_cons] at hn ⊢
    omega
  | case4 unseen node rest hgoal hseen ih =>
    obtain ⟨n, hn, hrun⟩ := ih
    refine ⟨n + 1, ?_, .skipped hgoal hseen hrun⟩
    simp only [List.length_cons]
    omega

end TypedClient
