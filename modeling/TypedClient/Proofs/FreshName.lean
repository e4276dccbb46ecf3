import Mathlib.Data.List.Perm.Subperm
import Mathlib.Data.List.Nodup
import Mathlib.Data.Nat.Find
import TypedClient.FreshName

/-!
# Fresh names are fresh

Numbered candidates differ, so that among one more of them than there are taken names one is free. The
first free one is the name, and names that are given one after the other differ.
-/

namespace TypedClient

theorem numbered_injective (base : String) : Function.Injective (numbered base) := by
  -- the digits of a number can be read back
  have hnumber {m n : Nat} (h : toString m = toString n) : m = n := by
    have hvalue := congrArg (fun s : String => Nat.ofDigitChars 10 s.toList 0) h
    simpa [Nat.toString_eq_ofList_toDigits] using hvalue
  have hsuffix (n : Nat) : base ++ toString n ≠ base := by
    intro h
    have hlength := congrArg (fun s : String => s.toList.length) h
    have hpos : 0 < (toString n).toList.length := by
      rw [Nat.toString_eq_ofList_toDigits, String.toList_ofList]
      exact Nat.length_toDigits_pos
    simp only [String.toList_append, List.length_append] at hlength
    omega
  intro i j h
  cases i with
  | zero =>
    cases j with
    | zero => rfl
    | succ j => exact absurd h.symm (hsuffix _)
  | succ i =>
    cases j with
    | zero => exact absurd h (hsuffix _)
    | succ j =>
      have hlist := congrArg String.toList h
      simp only [numbered, String.toList_append] at hlist
      have htail := String.toList_injective (List.append_cancel_left hlist)
      have := hnumber htail
      omega

theorem exists_freshName_eq (taken : List String) (candidate : Nat → String) :
    ∃ n, freshName taken candidate = candidate n := by
  unfold freshName
  dsimp only
  cases hfind : ((List.range (taken.length + 1)).map candidate).find? (· ∉ taken) with
  | none => exact ⟨_, Option.getD_none⟩
  | some name =>
    obtain ⟨n, -, hn⟩ := List.mem_map.1 (List.mem_of_find?_eq_some hfind)
    exact ⟨n, hn.symm⟩

/-- The first candidate is preferred. -/
theorem freshName_eq_zero {taken : List String} {candidate : Nat → String}
    (h : candidate 0 ∉ taken) : freshName taken candidate = candidate 0 := by
  simp [freshName, List.range_succ_eq_map, h]

/-! ## The first free candidate -/

/-- `name` is the first free one of the candidates, and a search comes to it after at most one
candidate more than there are taken names. -/
structure FirstFree (taken : List String) (candidate : Nat → String) (name : String) : Prop where
  free : name ∉ taken
  first : ∃ n ≤ taken.length + 1, candidate n = name ∧ ∀ m < n, candidate m ∈ taken

section FirstFree

variable {taken : List String} {candidate : Nat → String} {name : String}

theorem FirstFree.eq_of_free (h : FirstFree taken candidate name) (hfree : candidate 0 ∉ taken) :
    name = candidate 0 := by
  obtain ⟨n, -, rfl, hbefore⟩ := h.first
  rcases Nat.eq_zero_or_pos n with rfl | hpos
  · rfl
  · exact absurd (hbefore 0 hpos) hfree

/-- One of the candidates is free, even if the first two are the same. -/
theorem exists_free (taken : List String)
    (hinjective : Function.Injective fun n => candidate (n + 1)) :
    ∃ n ≤ taken.length + 1, candidate n ∉ taken := by
  -- otherwise all candidates but the first are taken, and these are more than there are taken names
  by_contra hall
  have hnodup : ((List.range (taken.length + 1)).map fun n => candidate (n + 1)).Nodup :=
    List.Nodup.map hinjective List.nodup_range
  have hsubset : ((List.range (taken.length + 1)).map fun n => candidate (n + 1)) ⊆ taken := by
    intro name hname
    obtain ⟨n, hn, rfl⟩ := List.mem_map.1 hname
    by_contra hfree
    exact hall ⟨n + 1, Nat.succ_le_of_lt (List.mem_range.1 hn), hfree⟩
  have hlength := (hnodup.subperm hsubset).length_le
  simp only [List.length_map, List.length_range] at hlength
  omega

theorem freshName_eq_of_first {n : Nat} (hn : n ≤ taken.length + 1) (hfree : candidate n ∉ taken)
    (hbefore : ∀ m < n, candidate m ∈ taken) : freshName taken candidate = candidate n := by
  rw [freshName, List.find?_map]
  rcases Nat.lt_or_eq_of_le hn with hlt | rfl
  · have hfind : (List.range (taken.length + 1)).find? ((decide <| · ∉ taken) ∘ candidate) =
        some n := by
      rw [List.find?_range_eq_some]
      exact ⟨by simpa using hfree, List.mem_range.2 hlt, fun m hm => by simpa using hbefore m hm⟩
    rw [hfind]
    rfl
  · have hfind : (List.range (taken.length + 1)).find? ((decide <| · ∉ taken) ∘ candidate) =
        none := by
      rw [List.find?_range_eq_none]
      exact fun m hm => by simpa using hbefore m hm
    rw [hfind]
    rfl

theorem firstFree_freshName (taken : List String)
    (hinjective : Function.Injective fun n => candidate (n + 1)) :
    FirstFree taken candidate (freshName taken candidate) := by
  obtain ⟨k, hk, hfree⟩ := exists_free taken hinjective
  have hexists : ∃ n, candidate n ∉ taken := ⟨k, hfree⟩
  have hle : Nat.find hexists ≤ taken.length + 1 := Nat.le_trans (Nat.find_min' hexists hfree) hk
  have hbefore : ∀ m < Nat.find hexists, candidate m ∈ taken := fun m hm =>
    not_not.1 (Nat.find_min hexists hm)
  rw [freshName_eq_of_first hle (Nat.find_spec hexists) hbefore]
  exact ⟨Nat.find_spec hexists, Nat.find hexists, hle, rfl, hbefore⟩

end FirstFree

/-! ## Names given one after the other -/

/-- Each of the names is the first free one of its candidates, and is taken from then on. -/
inductive GivenNames : List String → List (Nat → String) → List String → Prop
  | nil {taken : List String} : GivenNames taken [] []
  | cons {taken names : List String} {candidate : Nat → String} {candidates : List (Nat → String)}
      {name : String} (hname : FirstFree taken candidate name)
      (hnames : GivenNames (name :: taken) candidates names) :
      GivenNames taken (candidate :: candidates) (name :: names)

namespace GivenNames

variable {taken names : List String} {candidates : List (Nat → String)}

theorem length_eq (h : GivenNames taken candidates names) : names.length = candidates.length := by
  induction h with
  | nil => rfl
  | cons _ _ ih => rw [List.length_cons, List.length_cons, ih]

theorem not_mem (h : GivenNames taken candidates names) : ∀ name ∈ names, name ∉ taken := by
  induction h with
  | nil => exact fun _ h => absurd h List.not_mem_nil
  | cons hname _ ih =>
    refine List.forall_mem_cons.2 ⟨hname.free, fun name hmem => ?_⟩
    exact mt (List.mem_cons_of_mem _) (ih name hmem)

theorem nodup (h : GivenNames taken candidates names) : names.Nodup := by
  induction h with
  | nil => exact List.nodup_nil
  | cons _ hnames ih =>
    exact List.nodup_cons.2 ⟨fun hmem => hnames.not_mem _ hmem List.mem_cons_self, ih⟩

end GivenNames

end TypedClient
