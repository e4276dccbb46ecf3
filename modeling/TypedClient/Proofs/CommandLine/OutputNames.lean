import TypedClient.CommandLine.Run
import TypedClient.Proofs.Files.Path
import TypedClient.Proofs.Source.Casing

/-!
# Output names

The name of an output file is made of letters, digits and underscores, and so it names a file in the
output directory. A run begins with a check that all output names are different.
-/

namespace TypedClient

namespace Text

theorem mem_of_mem_intercalate {α : Type} {a sep : α} {ws : List (List α)}
    (h : a ∈ [sep].intercalate ws) : a = sep ∨ ∃ w ∈ ws, a ∈ w := by
  induction ws with
  | nil => cases h
  | cons w ws ih =>
    cases ws with
    | nil => exact .inr ⟨w, List.mem_singleton_self w, by rwa [List.intercalate_singleton] at h⟩
    | cons w' ws =>
      rw [List.intercalate_cons_cons, List.mem_append, List.mem_append, List.mem_singleton] at h
      rcases h with (h | h) | h
      · exact .inr ⟨w, List.mem_cons_self, h⟩
      · exact .inl h
      · exact (ih h).imp id fun ⟨w, hw, ha⟩ => ⟨w, List.mem_cons_of_mem _ hw, ha⟩

theorem isAlphanum_of_mem_snakeChars {c : Char} {cs : List Char} (h : c ∈ snakeChars cs) :
    c = '_' ∨ c.isAlphanum := by
  refine (mem_of_mem_intercalate h).imp id fun ⟨w, hw, hc⟩ => ?_
  obtain ⟨word, hword, rfl⟩ := List.mem_map.1 hw
  obtain ⟨upper, hupper, rfl⟩ := List.mem_map.1 hc
  exact isAlphanum_toLower (isAlphanum_of_mem_word hword upper hupper)

end Text

namespace CommandLine

/-- An output name is made of letters, digits and underscores, and the extension. -/
theorem exists_outputName_eq (path : String) : ∃ stem : String,
    outputName path = stem ++ ".rs" ∧ ∀ c ∈ stem.toList, c = '_' ∨ c.isAlphanum := by
  refine ⟨_, rfl, ?_⟩
  cases hstem : ((Path.stem? path).map Text.snake).filter (!·.isEmpty) with
  | none =>
    have hall : "client".toList.all Char.isAlphanum = true := by decide
    exact fun c hc => .inr (List.all_eq_true.1 hall c hc)
  | some stem =>
    obtain ⟨name, -, rfl⟩ := Option.map_eq_some_iff.1 (Option.filter_eq_some_iff.1 hstem).1
    intro c hc
    rw [Option.getD_some, Text.snake, String.toList_ofList] at hc
    exact Text.isAlphanum_of_mem_snakeChars hc

theorem isName_outputName (path : String) : Path.IsName (outputName path) := by
  obtain ⟨stem, hstem, hplain⟩ := exists_outputName_eq path
  have htoList : (outputName path).toList = stem.toList ++ ['.', 'r', 's'] := by
    rw [hstem, String.toList_append]
    rfl
  have hlength (s : String) (hs : outputName path = s) : 3 ≤ s.toList.length := by
    rw [← hs, htoList, List.length_append]
    exact Nat.le_add_left 3 _
  refine ⟨by simp [htoList], ?_, fun h => ?_, fun h => ?_⟩
  · rw [htoList, List.mem_append, not_or]
    refine ⟨fun hslash => ?_, by decide⟩
    rcases hplain _ hslash with h | h
    · revert h; decide
    · revert h; decide
  · exact absurd (hlength _ h) (by decide)
  · exact absurd (hlength _ h) (by decide)

/-- Nothing clashes if all output names are different. -/
theorem findClash_eq_none_iff {claimed paths : List String} :
    findClash claimed paths = none ↔
      (paths.map outputName).Nodup ∧ ∀ p ∈ paths, ∀ c ∈ claimed, outputName c ≠ outputName p := by
  induction paths generalizing claimed with
  | nil => simp [findClash]
  | cons path paths ih =>
    rw [findClash]
    split
    · rename_i first hfirst
      obtain ⟨hclaimed, hname⟩ : first ∈ claimed ∧ outputName first = outputName path :=
        ⟨List.mem_of_find?_eq_some hfirst, by simpa using List.find?_some hfirst⟩
      exact iff_of_false nofun fun h => h.2 path List.mem_cons_self first hclaimed hname
    · rename_i hnone
      have hfree : ∀ c ∈ claimed, outputName c ≠ outputName path := by simpa using hnone
      simp only [ih, List.map_cons, List.nodup_cons, List.forall_mem_cons, List.mem_map, not_exists,
        not_and]
      constructor
      · rintro ⟨hnodup, hothers⟩
        exact ⟨⟨fun p hp => (hothers p hp).1.symm, hnodup⟩, hfree, fun p hp => (hothers p hp).2⟩
      · rintro ⟨⟨hnew, hnodup⟩, -, hothers⟩
        exact ⟨hnodup, fun p hp => ⟨fun h => hnew p hp h.symm, hothers p hp⟩⟩

end CommandLine

end TypedClient
