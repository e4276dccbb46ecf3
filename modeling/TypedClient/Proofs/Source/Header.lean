import TypedClient.Proofs.Run
import TypedClient.Source.Emission

/-!
# The header of the source

A header is text of any kind, and may come from the title of a document. In the source it stands as
comments before the code, one for each of its lines, and the code is the same with any header.
-/

namespace TypedClient

namespace Text

variable {c : Char} {cs line : List Char}

theorem not_mem_of_mem_splitOn (h : line ∈ cs.splitOn c) : c ∉ line := by
  induction cs generalizing line with
  | nil =>
    rw [List.splitOn_nil, List.mem_singleton] at h
    simp [h]
  | cons x xs ih =>
    rw [List.splitOn_cons_eq_if_modifyHead] at h
    split at h
    · rcases List.mem_cons.1 h with rfl | h
      · exact List.not_mem_nil
      · exact ih h
    · rename_i hx
      obtain ⟨first, rest, hsplit⟩ := List.exists_cons_of_ne_nil (List.splitOn_ne_nil c xs)
      rw [hsplit, List.modifyHead_cons] at h
      rcases List.mem_cons.1 h with rfl | h
      · have hfirst : c ∉ first := ih (by simp [hsplit])
        simpa [hfirst] using fun heq : c = x => hx (by simp [heq])
      · exact ih (hsplit ▸ List.mem_cons_of_mem _ h)

theorem mem_of_mem_dropReturn (h : c ∈ dropReturn cs) : c ∈ cs := by
  unfold dropReturn at h
  split at h
  · exact (List.dropLast_sublist _).subset h
  · exact h

/-- A line ends before the first line feed. -/
theorem lineFeed_not_mem_of_mem_lineChars (h : line ∈ lineChars cs) : '\n' ∉ line := by
  have hended (hline : line ∈ (cs.splitOn '\n').dropLast.map dropReturn) : '\n' ∉ line := by
    obtain ⟨piece, hpiece, rfl⟩ := List.mem_map.1 hline
    exact mt mem_of_mem_dropReturn (not_mem_of_mem_splitOn ((List.dropLast_sublist _).subset hpiece))
  unfold lineChars at h
  dsimp only at h
  split at h
  · exact hended h
  · exact hended h
  · rename_i last hlast
    rcases List.mem_append.1 h with h | h
    · exact hended h
    · rw [List.mem_singleton.1 h]
      exact not_mem_of_mem_splitOn (List.mem_of_getLast? hlast)

theorem splitOn_ended_append {ls : List (List Char)} (h : ∀ line ∈ ls, c ∉ line) (rest : List Char) :
    (ls.flatMap (· ++ [c]) ++ rest).splitOn c = ls ++ rest.splitOn c := by
  induction ls with
  | nil => rfl
  | cons line ls ih =>
    obtain ⟨hline, hls⟩ := List.forall_mem_cons.1 h
    rw [List.flatMap_cons, List.append_assoc, List.append_assoc, List.singleton_append,
      List.splitOn_append_cons_self, List.splitOn_eq_singleton hline, ih hls]
    rfl

end Text

namespace Source

/-- Whole lines, each of which is empty or a comment. -/
structure IsCommentary (s : String) : Prop where
  lines : ∀ line ∈ s.toList.splitOn '\n', line = [] ∨ "// ".toList <+: line
  ended : s = "" ∨ ['\n'] <:+ s.toList

/-- The lines of a text that are neither empty nor comments. -/
def codeLines (s : String) : List (List Char) :=
  (s.toList.splitOn '\n').filter fun line => line ≠ [] ∧ ¬ "// ".toList <+: line

/-! ## Commentary -/

theorem isCommentary_empty : IsCommentary "" where
  lines line h := by
    rw [String.toList_empty, List.splitOn_nil, List.mem_singleton] at h
    exact .inl h
  ended := .inl rfl

theorem IsCommentary.codeLines_eq {s : String} (h : IsCommentary s) : codeLines s = [] :=
  List.filter_eq_nil_iff.2 fun line hline => by
    rw [decide_eq_true_eq, not_and]
    exact fun hline' => not_not_intro ((h.lines line hline).resolve_left hline')

/-- The code after comments is the code without them. -/
theorem IsCommentary.codeLines_append {s : String} (h : IsCommentary s) (code : String) :
    codeLines (s ++ code) = codeLines code := by
  rcases h.ended with rfl | ⟨cs, hcs⟩
  · rw [String.empty_append]
  · have hnone := h.codeLines_eq
    rw [codeLines, ← hcs, List.splitOn_append_cons_self, List.filter_append,
      List.append_eq_nil_iff] at hnone
    rw [codeLines, String.toList_append, ← hcs, List.append_assoc, List.singleton_append,
      List.splitOn_append_cons_self, List.filter_append, hnone.1, List.nil_append]
    rfl

theorem toList_headerComment (header : String) : (headerComment header).toList =
    ((Text.lineChars header.toList).map ("// ".toList ++ ·)).flatMap (· ++ ['\n']) ++ ['\n'] := by
  have hend : "\n".toList = ['\n'] := rfl
  rw [headerComment, String.toList_append, String.toList_join, hend, Text.lines, List.map_map,
    List.flatMap_map, List.flatMap_map]
  simp [hend]

theorem isCommentary_headerComment (header : String) : IsCommentary (headerComment header) where
  lines line h := by
    have hlines : ∀ line ∈ (Text.lineChars header.toList).map ("// ".toList ++ ·), '\n' ∉ line := by
      refine List.forall_mem_map.2 fun line hline => ?_
      rw [List.mem_append, not_or]
      exact ⟨by decide, Text.lineFeed_not_mem_of_mem_lineChars hline⟩
    rw [toList_headerComment, Text.splitOn_ended_append hlines, List.mem_append] at h
    rcases h with h | h
    · obtain ⟨rest, -, rfl⟩ := List.mem_map.1 h
      exact .inr (List.prefix_append _ _)
    · have hempty : ['\n'].splitOn '\n' = [[], []] := by decide
      rw [hempty] at h
      exact .inl (by simpa using h)
  ended := by
    rw [toList_headerComment]
    exact .inr (List.suffix_append _ _)

/-! ## Headers -/

/-- What stands before the code. -/
def headerText (header : Option String) : String := (header.map headerComment).getD ""

theorem isCommentary_headerText (header : Option String) : IsCommentary (headerText header) := by
  cases header with
  | none => exact isCommentary_empty
  | some header => exact isCommentary_headerComment header

theorem emit_eq_map (models : List Model) (c : Client) (header : Option String) :
    emit models c header = (emit models c none).map (headerText header ++ ·) := by
  unfold emit
  dsimp only
  split
  · rfl
  · simp only [headerText, Option.map_none, Option.getD_none, Except.map, String.empty_append,
      String.append_assoc]

/-- The lines of code are the same under any header. -/
theorem map_codeLines_emit (models : List Model) (c : Client) (header : Option String) :
    (emit models c header).map codeLines = (emit models c none).map codeLines := by
  rw [emit_eq_map]
  cases emit models c none with
  | error e => rfl
  | ok code => exact congrArg Except.ok ((isCommentary_headerText header).codeLines_append code)

end Source

/-- Whether a source begins with a comment changes nothing but the header. -/
theorem Settings.generateFrom_withoutHeader (s : Settings) (r : Resolved) :
    { s with moduleDoc := false }.generateFrom r =
      (s.generateFrom r).map fun g => { g with header := none } := by
  unfold generateFrom
  cases r.table.methods r.document.operations <;> rfl

theorem Settings.header_generateFrom {s : Settings} {r : Resolved} {g : Generation}
    (h : s.generateFrom r = .ok g) : g.header = s.header r.document.title := by
  obtain ⟨_, _, hg⟩ := bind_eq_ok_iff.1 h
  cases hg
  rfl

namespace Source

/-- A header puts nothing before the code but whole lines that are empty or comments, the same ones for
all models and clients; so the code is the same with any two headers. A generation with a header, which
may hold any title, gives the source that it gives without one, after such lines. -/
theorem header_adds_comments :
    (∀ header, ∃ comments, IsCommentary comments ∧ ∀ models c,
      emit models c (some header) = (emit models c none).map (comments ++ ·)) ∧
    (∀ models c header header',
      (emit models c header).map codeLines = (emit models c header').map codeLines) ∧
    ∀ (s : Settings) (r : Resolved), ∃ comments, IsCommentary comments ∧
      (s.generateFrom r).bind Generation.source =
        (({ s with moduleDoc := false }.generateFrom r).bind Generation.source).map
          (comments ++ ·) := by
  refine ⟨fun header => ?_, fun models c header header' => ?_, fun s r => ?_⟩
  · exact ⟨_, isCommentary_headerText (some header), fun models c => emit_eq_map models c (some header)⟩
  · rw [map_codeLines_emit, map_codeLines_emit models c header']
  · refine ⟨_, isCommentary_headerText (s.header r.document.title), ?_⟩
    rw [s.generateFrom_withoutHeader]
    cases hg : s.generateFrom r with
    | error e => rfl
    | ok g =>
      have hsource := emit_eq_map g.models g.client g.header
      rw [Settings.header_generateFrom hg] at hsource
      simp only [Except.bind, Except.map, Generation.source, Settings.header_generateFrom hg]
      exact hsource

/-- Neither a line feed nor the end of a comment leads out of the comment. -/
example : headerComment "Pets\r\n*/ fn main() \x7b\x7d\n" = "// Pets\n// */ fn main() \x7b\x7d\n\n" := by
  decide +kernel

end Source

end TypedClient
