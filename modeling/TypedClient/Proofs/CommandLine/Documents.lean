import TypedClient.Proofs.CommandLine.OutputNames
import TypedClient.Proofs.Files.Tree
import TypedClient.Proofs.JsonText
import TypedClient.Proofs.Order.Declarations
import TypedClient.Proofs.Source.Clashes

/-!
# Documents of one run

A run reads all documents before it writes anything, and writes each client to a place of its own. So
what becomes of a document is the same as if it were the only one.
-/

namespace TypedClient

/-! ## One document -/

/-- What is generated can be written as a source. -/
def DocumentOutcome.Emits (outcome : DocumentOutcome) : Prop :=
  ∀ g, outcome.generation = .ok g → ∃ source, g.source = .ok source

namespace Settings

variable {s : Settings} {t : FileTree} {path text : String} {g : Generation}

/-- The source of what a run produces can always be written, as the models have different names. -/
theorem exists_source (h : s.generate text = .ok g) : ∃ source, g.source = .ok source := by
  obtain ⟨r, -, hr⟩ := bind_eq_ok_iff.1 h
  obtain ⟨⟨methods, skipped⟩, -, hg⟩ := bind_eq_ok_iff.1 hr
  cases hg
  exact ⟨_, Source.emit_eq (TypeTable.nodup_declarations r.table)⟩

/-- The outcome for the document of a path by itself. -/
def outcomeIn (s : Settings) (t : FileTree) (path : String) : DocumentOutcome :=
  ((s.generateFile path : StateM FileTree DocumentOutcome).run t).1

/-- What is generated from the document of a path by itself. -/
def generationIn (s : Settings) (t : FileTree) (path : String) : Except Failure Generation :=
  (s.outcomeIn t path).generation

theorem run_readText (t : FileTree) (path : String) :
    (readText path : StateM FileTree (Except Failure String)).run t =
      ((t.read path).mapError (.unreadable path), t) := by
  have hread : (FileAccess.read path : StateM FileTree (Except FileError String)).run t =
      (t.read path, t) := rfl
  rw [readText, StateT.run_bind, hread]
  cases t.read path <;> rfl

theorem run_generateFile (s : Settings) (t : FileTree) (path : String) :
    (s.generateFile path : StateM FileTree DocumentOutcome).run t =
      (s.outcomeFor path ((t.read path).mapError (.unreadable path)), t) := by
  rw [generateFile, StateT.run_bind, run_readText]
  rfl

theorem path_outcomeIn (s : Settings) (t : FileTree) (path : String) :
    (s.outcomeIn t path).path = path := by
  rw [outcomeIn, run_generateFile]
  rfl

theorem generationIn_eq_ok_iff : s.generationIn t path = .ok g ↔
    ∃ text, t.read path = .ok text ∧ s.generate text = .ok g := by
  have hgeneration : s.generationIn t path =
      ((t.read path).mapError (.unreadable path)).bind s.generate := by
    rw [generationIn, outcomeIn, run_generateFile]
    rfl
  rw [hgeneration]
  cases t.read path with
  | error e => exact iff_of_false nofun nofun
  | ok text => exact ⟨fun h => ⟨text, rfl, h⟩, fun ⟨_, htext, h⟩ => Except.ok.inj htext ▸ h⟩

/-- More directories do not matter to what can be generated. -/
theorem generationIn_of_addsDirectories {made : FileTree} (h : t.AddsDirectories made)
    (hg : s.generationIn t path = .ok g) : s.generationIn made path = .ok g := by
  obtain ⟨text, htext, hg⟩ := generationIn_eq_ok_iff.1 hg
  exact generationIn_eq_ok_iff.2 ⟨text, h.read_eq_ok htext, hg⟩

/-- Documents are read one after the other, and reading changes nothing. -/
theorem run_generateAll (s : Settings) (t : FileTree) (paths : List String) :
    (s.generateAll paths : StateM FileTree (List DocumentOutcome)).run t =
      (paths.map (s.outcomeIn t), t) := by
  have hfile (path : String) : (s.generateFile path : StateM FileTree DocumentOutcome).run t =
      (s.outcomeIn t path, t) := by rw [outcomeIn, run_generateFile]
  rw [generateAll]
  induction paths with
  | nil => rfl
  | cons path paths ih =>
    rw [List.mapM_cons, StateT.run_bind, hfile]
    change (List.mapM s.generateFile paths >>= fun outcomes => _ :
      StateM FileTree (List DocumentOutcome)).run t = _
    rw [StateT.run_bind, ih]
    rfl

theorem emits_outcomeIn (s : Settings) (t : FileTree) (path : String) :
    (s.outcomeIn t path).Emits := by
  intro g h
  obtain ⟨text, -, hg⟩ := generationIn_eq_ok_iff.1 h
  exact exists_source hg

end Settings

/-! ## All documents -/

namespace CommandLine

/-- No directory and no file could not be made. -/
structure Report.Unhindered (r : Report) : Prop where
  created : ∀ path e, r.error ≠ some (.notCreated path e)
  written : ∀ path e, r.error ≠ some (.notWritten path e)

theorem Report.Unhindered.of_eq {r r' : Report} (h : r.Unhindered) (heq : r.error = r'.error) :
    r'.Unhindered :=
  ⟨heq ▸ h.created, heq ▸ h.written⟩

theorem Report.exitCode_eq_zero_iff {r : Report} : r.exitCode = 0 ↔ r.error = none := by
  rw [exitCode]
  cases r.error <;> simp

namespace Options

variable {o : Options} {failed : Nat} {outcome : DocumentOutcome} {outcomes : List DocumentOutcome}
  {t t' t₁ : FileTree} {report : Report} {p q : String} {place : List String}

/-- The path that the client of a document is written to. -/
def outputPath (o : Options) (path : String) : String :=
  Path.join o.outDirectory (outputName path)

/-- Documents with different output names are written to different places. -/
theorem outputName_eq_of_names (hp : t.Names (o.outputPath p) place)
    (hq : t.Names (o.outputPath q) place) : outputName p = outputName q := by
  obtain ⟨dir, -, rfl⟩ := (FileTree.names_join_iff (isName_outputName p)).1 hp
  obtain ⟨dir', -, hplace⟩ := (FileTree.names_join_iff (isName_outputName q)).1 hq
  exact (List.append_inj' hplace rfl).2 |> List.singleton_inj.1

/-- The run of `conclude`. -/
def Concludes (o : Options) (failed : Nat) (outcomes : List DocumentOutcome) (t : FileTree)
    (report : Report) (t' : FileTree) : Prop :=
  (o.conclude failed outcomes : StateM FileTree Report).run t = (report, t')

theorem exists_of_run_after {x : StateM FileTree Report} {log : List Log.Entry}
    (h : StateT.run (do return (← x).after log) t = (report, t')) :
    ∃ rest, x.run t = (rest, t') ∧ report.error = rest.error := by
  cases hx : x.run t with
  | mk rest t'' =>
    rw [StateT.run_bind, hx] at h
    cases h
    exact ⟨rest, rfl, rfl⟩

theorem run_write (t : FileTree) (path text : String) :
    (FileAccess.write path text : StateM FileTree (Except FileError Unit)).run t =
      match t.write path text with
      | .ok t'   => (.ok (), t')
      | .error e => (.error e, t) :=
  rfl

/-- What is done about one outcome: a failure is counted, and a client is written unless this is a
check. -/
theorem Concludes.cons (h : o.Concludes failed (outcome :: outcomes) t report t')
    (hsource : outcome.Emits)
    (hreport : o.check = false → report.Unhindered) :
    (∃ e rest, outcome.generation = .error e ∧ o.Concludes (failed + 1) outcomes t rest t' ∧
      report.error = rest.error) ∨
    ∃ g source rest t₁, outcome.generation = .ok g ∧ g.source = .ok source ∧
      (o.check = true ∧ t₁ = t ∨
        o.check = false ∧ t.write (o.outputPath outcome.path) source = .ok t₁) ∧
      o.Concludes failed outcomes t₁ rest t' ∧ report.error = rest.error := by
  rw [Concludes, conclude] at h
  cases hgeneration : outcome.generation with
  | error e =>
    rw [hgeneration] at h
    obtain ⟨rest, h⟩ := exists_of_run_after h
    exact .inl ⟨e, rest, rfl, h⟩
  | ok g =>
    obtain ⟨source, hg⟩ := hsource g hgeneration
    simp only [hgeneration, hg] at h
    refine .inr ⟨g, source, ?_⟩
    split at h
    · rename_i hcheck
      obtain ⟨rest, h⟩ := exists_of_run_after h
      exact ⟨rest, t, rfl, hg, .inl ⟨hcheck, rfl⟩, h⟩
    · rename_i hcheck
      cases hwrite : t.write (o.outputPath outcome.path) source with
      | error e =>
        -- the run would end here with the very error that is excluded
        rw [StateT.run_bind, ← outputPath, run_write, hwrite] at h
        cases h
        exact absurd rfl ((hreport (by simpa using hcheck)).written (o.outputPath outcome.path) e)
      | ok t₁ =>
        rw [StateT.run_bind, ← outputPath, run_write, hwrite] at h
        obtain ⟨rest, h⟩ := exists_of_run_after h
        exact ⟨rest, t₁, rfl, hg, .inr ⟨by simpa using hcheck, rfl⟩, h⟩

/-- The run fails if one of the documents does. -/
theorem Concludes.error_eq_none_iff (h : o.Concludes failed outcomes t report t')
    (hsource : ∀ outcome ∈ outcomes, outcome.Emits)
    (hreport : o.check = false → report.Unhindered) :
    report.error = none ↔ failed = 0 ∧ ∀ outcome ∈ outcomes, ∃ g, outcome.generation = .ok g := by
  induction outcomes generalizing failed t report with
  | nil =>
    cases h
    by_cases hfailed : failed = 0 <;> simp [hfailed]
  | cons outcome outcomes ih =>
    obtain ⟨hfirst, hothers⟩ := List.forall_mem_cons.1 hsource
    rw [List.forall_mem_cons]
    rcases h.cons hfirst hreport with ⟨e, rest, he, hrest, herror⟩ |
      ⟨g, _, rest, t₁, hg, -, -, hrest, herror⟩
    · have hfail := ih hrest hothers fun hwrites => (hreport hwrites).of_eq herror
      rw [herror, hfail]
      simp [he]
    · rw [herror, ih hrest hothers fun hwrites => (hreport hwrites).of_eq herror]
      simp [hg]

/-- A check writes nothing. -/
theorem Concludes.eq_of_check (h : o.Concludes failed outcomes t report t')
    (hsource : ∀ outcome ∈ outcomes, outcome.Emits)
    (hcheck : o.check = true) : t' = t := by
  induction outcomes generalizing failed t report with
  | nil =>
    cases h
    rfl
  | cons outcome outcomes ih =>
    obtain ⟨hfirst, hothers⟩ := List.forall_mem_cons.1 hsource
    have hreport (hwrites : o.check = false) : report.Unhindered := by
      cases hcheck.symm.trans hwrites
    rcases h.cons hfirst hreport with ⟨_, _, -, hrest, -⟩ |
      ⟨_, _, _, _, -, -, ⟨-, rfl⟩ | ⟨hwrites, -⟩, hrest, -⟩
    · exact ih hrest hothers
    · exact ih hrest hothers
    · cases hcheck.symm.trans hwrites

/-- Each client is at its place, and nothing else is different. -/
structure Deposits (o : Options) (outcomes : List DocumentOutcome) (t t' : FileTree) : Prop where
  same : FileTree.SameDirectories t t'
  written : ∀ outcome ∈ outcomes, ∀ g, outcome.generation = .ok g → ∃ source place,
    g.source = .ok source ∧ t'.Names (o.outputPath outcome.path) place ∧
      t'.get? place = some (.file source.toUTF8)
  changed : ∀ place, t'.get? place ≠ t.get? place → ∃ outcome ∈ outcomes,
    (∃ g, outcome.generation = .ok g) ∧ t'.Names (o.outputPath outcome.path) place

namespace Deposits

theorem nil (o : Options) (t : FileTree) : o.Deposits [] t t :=
  ⟨.refl t, nofun, fun _ hne => absurd rfl hne⟩

theorem cons_of_error {e : Failure} (h : o.Deposits outcomes t t')
    (he : outcome.generation = .error e) : o.Deposits (outcome :: outcomes) t t' where
  same := h.same
  written := by
    refine List.forall_mem_cons.2 ⟨fun g hg => ?_, h.written⟩
    cases he.symm.trans hg
  changed place hne := by
    obtain ⟨changing, hmem, hchanging⟩ := h.changed place hne
    exact ⟨changing, List.mem_cons_of_mem _ hmem, hchanging⟩

/-- A client that is written stays as it is, as the others are written to other places. -/
theorem cons_of_write {g : Generation} {source : String} (h : o.Deposits outcomes t₁ t')
    (hg : outcome.generation = .ok g) (hsource : g.source = .ok source)
    (hwrite : t.write (o.outputPath outcome.path) source = .ok t₁)
    (hnew : ∀ other ∈ outcomes, outputName other.path ≠ outputName outcome.path) :
    o.Deposits (outcome :: outcomes) t t' := by
  have hname := isName_outputName outcome.path
  obtain ⟨dir, hopens, hfree, rfl⟩ := (FileTree.write_join_eq_ok_iff hname).1 hwrite
  have hnonempty : dir ++ [outputName outcome.path] ≠ [] := by simp
  have hsame := (FileTree.sameDirectories_set hnonempty hfree source.toUTF8).trans h.same
  have hplace : t'.Names (o.outputPath outcome.path) (dir ++ [outputName outcome.path]) :=
    hsame.names_iff.2 ((FileTree.names_join_iff hname).2 ⟨dir, hopens, rfl⟩)
  refine ⟨hsame, List.forall_mem_cons.2 ⟨fun g' hg' => ?_, h.written⟩, fun place hne => ?_⟩
  · cases hg.symm.trans hg'
    refine ⟨source, _, hsource, hplace, ?_⟩
    -- if the file were changed later, then for a document with the same output name
    rw [← FileTree.get?_set_self hnonempty t (.file source.toUTF8)]
    by_contra hne
    obtain ⟨other, hmem, -, hother⟩ := h.changed _ hne
    exact hnew other hmem (outputName_eq_of_names hother hplace)
  · by_cases heq : place = dir ++ [outputName outcome.path]
    · subst heq
      exact ⟨outcome, List.mem_cons_self, ⟨g, hg⟩, hplace⟩
    · have hget := FileTree.get?_set hnonempty t (.file source.toUTF8) place
      rw [if_neg heq] at hget
      rw [← hget] at hne
      obtain ⟨other, hmem, hother⟩ := h.changed place hne
      exact ⟨other, List.mem_cons_of_mem _ hmem, hother⟩

end Deposits

theorem Concludes.deposits (h : o.Concludes failed outcomes t report t')
    (hsource : ∀ outcome ∈ outcomes, outcome.Emits)
    (hreport : report.Unhindered) (hcheck : o.check = false)
    (hnames : (outcomes.map (outputName ·.path)).Nodup) : o.Deposits outcomes t t' := by
  induction outcomes generalizing failed t report with
  | nil =>
    cases h
    exact .nil o _
  | cons outcome outcomes ih =>
    obtain ⟨hfirst, hothers⟩ := List.forall_mem_cons.1 hsource
    obtain ⟨hnew, hnames⟩ := List.nodup_cons.1 hnames
    rcases h.cons hfirst (fun _ => hreport) with ⟨e, rest, he, hrest, herror⟩ |
      ⟨g, source, rest, t₁, hg, hg', ⟨hchecks, -⟩ | ⟨-, hwrite⟩, hrest, herror⟩
    · exact (ih hrest hothers (hreport.of_eq herror) hnames).cons_of_error he
    · cases hcheck.symm.trans hchecks
    · refine (ih hrest hothers (hreport.of_eq herror) hnames).cons_of_write hg hg' hwrite ?_
      exact fun other hmem heq => hnew (List.mem_map.2 ⟨other, hmem, heq⟩)

/-! ## Runs -/

/-- The outcomes for the documents, each by itself. -/
def outcomesIn (o : Options) (t : FileTree) : List DocumentOutcome :=
  o.documents.map (o.settings.outcomeIn t)

theorem emits_of_mem_outcomesIn (o : Options) (t : FileTree) :
    ∀ outcome ∈ o.outcomesIn t, outcome.Emits := by
  intro outcome hmem
  obtain ⟨p, -, rfl⟩ := List.mem_map.1 hmem
  exact o.settings.emits_outcomeIn t p

theorem forall_outcomesIn_iff {o : Options} {t : FileTree} :
    (∀ outcome ∈ o.outcomesIn t, ∃ g, outcome.generation = .ok g) ↔
      ∀ p ∈ o.documents, ∃ g, o.settings.generationIn t p = .ok g :=
  List.forall_mem_map

theorem exists_of_run_process
    (h : (o.process : StateM FileTree Report).run t = (report, t')) :
    ∃ rest, o.Concludes 0 (o.outcomesIn t) t rest t' ∧ report.error = rest.error := by
  rw [process, StateT.run_bind, Settings.run_generateAll] at h
  exact exists_of_run_after h

theorem exitCode_of_run_process
    (h : (o.process : StateM FileTree Report).run t = (report, t'))
    (hreport : o.check = false → report.Unhindered) :
    report.exitCode = 0 ↔ ∀ p ∈ o.documents, ∃ g, o.settings.generationIn t p = .ok g := by
  obtain ⟨rest, hrest, herror⟩ := exists_of_run_process h
  rw [Report.exitCode_eq_zero_iff, herror, hrest.error_eq_none_iff (emits_of_mem_outcomesIn o t)
    fun hwrites => (hreport hwrites).of_eq herror, forall_outcomesIn_iff]
  exact and_iff_right rfl

theorem run_createDirectories (t : FileTree) (path : String) :
    (FileAccess.createDirectories path : StateM FileTree (Except FileError Unit)).run t =
      t.createDirectories path :=
  rfl

theorem deposits_of_run_process (h : (o.process : StateM FileTree Report).run t = (report, t'))
    (hreport : report.Unhindered) (hcheck : o.check = false)
    (hnames : (o.documents.map outputName).Nodup) :
    (∀ p ∈ o.documents, ∀ g, o.settings.generationIn t p = .ok g →
      ∃ source, g.source = .ok source ∧ t'.read (o.outputPath p) = .ok source) ∧
    (∀ place, t'.get? place ≠ t.get? place → ∃ p ∈ o.documents,
      (∃ g, o.settings.generationIn t p = .ok g) ∧ t'.Names (o.outputPath p) place) ∧
    (∀ p ∈ o.documents, ∀ e, o.settings.generationIn t p = .error e →
      ∀ place, t'.Names (o.outputPath p) place → t'.get? place = t.get? place) := by
  obtain ⟨rest, hrest, herror⟩ := exists_of_run_process h
  have hpaths : (o.outcomesIn t).map (outputName ·.path) = o.documents.map outputName := by
    simp [outcomesIn, Function.comp_def, Settings.path_outcomeIn]
  have hdeposits := hrest.deposits (emits_of_mem_outcomesIn o t) (hreport.of_eq herror) hcheck
    (hpaths ▸ hnames)
  have hchanged (place : List String) (hne : t'.get? place ≠ t.get? place) : ∃ p ∈ o.documents,
      (∃ g, o.settings.generationIn t p = .ok g) ∧ t'.Names (o.outputPath p) place := by
    obtain ⟨outcome, hmem, hg, hplace⟩ := hdeposits.changed place hne
    obtain ⟨p, hp, rfl⟩ := List.mem_map.1 hmem
    rw [Settings.path_outcomeIn] at hplace
    exact ⟨p, hp, hg, hplace⟩
  refine ⟨fun p hp g hg => ?_, hchanged, fun p hp e he place hplace => ?_⟩
  · obtain ⟨source, place, hsource, hplace, hfile⟩ :=
      hdeposits.written _ (List.mem_map_of_mem hp) g hg
    rw [Settings.path_outcomeIn] at hplace
    exact ⟨source, hsource, FileTree.read_join (isName_outputName p) hplace hfile⟩
  · by_contra hne
    -- whatever is written there is for a document with the same output name, which is `p` itself
    obtain ⟨q, hq, ⟨g, hg⟩, hplace'⟩ := hchanged place hne
    obtain rfl := List.inj_on_of_nodup_map hnames hp hq (outputName_eq_of_names hplace hplace')
    cases he.symm.trans hg

/-- Documents do not matter to each other. If two would be written to one file, the run fails, and
nothing changes. A check changes nothing either. Else, unless a directory or a file cannot be made, the
client of each document that can be generated by itself is written, and nothing else changes but for
the directories that are made first, which keep no document from being generated. The run succeeds if
all documents can be generated. -/
theorem documents_apart (h : (o.run : StateM FileTree Report).run t = (report, t')) :
    (¬ (o.documents.map outputName).Nodup → report.exitCode ≠ 0 ∧ t' = t) ∧
    ((o.documents.map outputName).Nodup → o.check = true → t' = t ∧
      (report.exitCode = 0 ↔ ∀ p ∈ o.documents, ∃ g, o.settings.generationIn t p = .ok g)) ∧
    ((o.documents.map outputName).Nodup → o.check = false → report.Unhindered →
      ∃ made, t.createDirectories o.outDirectory = (.ok (), made) ∧ t.AddsDirectories made ∧
        (∀ p g, o.settings.generationIn t p = .ok g → o.settings.generationIn made p = .ok g) ∧
        (∀ p ∈ o.documents, ∀ g, o.settings.generationIn made p = .ok g →
          ∃ source, g.source = .ok source ∧ t'.read (o.outputPath p) = .ok source) ∧
        (∀ place, t'.get? place ≠ made.get? place → ∃ p ∈ o.documents,
          (∃ g, o.settings.generationIn made p = .ok g) ∧ t'.Names (o.outputPath p) place) ∧
        (∀ p ∈ o.documents, ∀ e, o.settings.generationIn made p = .error e →
          ∀ place, t'.Names (o.outputPath p) place → t'.get? place = made.get? place) ∧
        (report.exitCode = 0 ↔
          ∀ p ∈ o.documents, ∃ g, o.settings.generationIn made p = .ok g)) := by
  have hclash : findClash [] o.documents = none ↔ (o.documents.map outputName).Nodup := by
    simp [findClash_eq_none_iff]
  rw [run] at h
  split at h
  · rename_i e he
    have hnames : ¬ (o.documents.map outputName).Nodup := by
      intro hnodup
      cases he.symm.trans (hclash.2 hnodup)
    cases h
    exact ⟨fun _ => ⟨Nat.one_ne_zero, rfl⟩, fun h => absurd h hnames, fun h => absurd h hnames⟩
  · rename_i hnone
    have hnames := hclash.1 hnone
    refine ⟨fun h => absurd hnames h, fun _ hcheck => ?_, fun _ hcheck hreport => ?_⟩
    · rw [if_pos hcheck] at h
      obtain ⟨rest, hrest, -⟩ := exists_of_run_process h
      refine ⟨hrest.eq_of_check (emits_of_mem_outcomesIn o t) hcheck,
        exitCode_of_run_process h fun hwrites => ?_⟩
      cases hcheck.symm.trans hwrites
    · rw [if_neg (by simp [hcheck]), StateT.run_bind, run_createDirectories] at h
      have hadds := FileTree.AddsDirectories.createDirectories t o.outDirectory
      cases hmade : t.createDirectories o.outDirectory with
      | mk result made =>
        rw [hmade] at h hadds
        cases result with
        | error e =>
          cases h
          exact absurd rfl (hreport.created o.outDirectory e)
        | ok =>
          obtain ⟨hwritten, hchanged, hkept⟩ := deposits_of_run_process h hreport hcheck hnames
          exact ⟨made, rfl, hadds, fun p g => Settings.generationIn_of_addsDirectories hadds, hwritten,
            hchanged, hkept, exitCode_of_run_process h fun _ => hreport⟩

/-- A document that can be generated, and one that cannot be read. -/
def mixedFiles : FileTree where
  entries := [(["good.json"], .file Json.idleText.toUTF8), (["bad.json"], .file "\x7b".toUTF8)]

def mixedOptions : Options where
  documents := ["bad.json", "good.json"]
  outDirectory := "out"

/-- The failure of the first document counts, and the second one is written in spite of it. -/
theorem mixed_documents_apart : ∃ report t' made g source,
    (mixedOptions.run : StateM FileTree Report).run mixedFiles = (report, t') ∧
    report.error = some (.failedDocuments 1 2) ∧
    mixedFiles.createDirectories "out" = (.ok (), made) ∧
    mixedOptions.settings.generationIn made "good.json" = .ok g ∧ g.source = .ok source ∧
    t'.read "out/good.rs" = .ok source ∧
    ∀ place, t'.Names "out/bad.rs" place → t'.get? place = made.get? place := by
  have herror : ((mixedOptions.run : StateM FileTree Report).run mixedFiles).1.error =
      some (.failedDocuments 1 2) := by decide +kernel
  have hgood : (mixedOptions.settings.generationIn (mixedFiles.createDirectories "out").2
      "good.json").isOk = true := by decide +kernel
  have hbad : (mixedOptions.settings.generationIn (mixedFiles.createDirectories "out").2
      "bad.json").isOk = false := by decide +kernel
  have hpaths : mixedOptions.outputPath "good.json" = "out/good.rs" ∧
      mixedOptions.outputPath "bad.json" = "out/bad.rs" := by decide +kernel
  obtain ⟨report, t', hrun⟩ : ∃ report t',
      (mixedOptions.run : StateM FileTree Report).run mixedFiles = (report, t') := ⟨_, _, rfl⟩
  have herror : report.error = some (.failedDocuments 1 2) := by rwa [hrun] at herror
  have hreport : report.Unhindered := by constructor <;> simp [herror]
  obtain ⟨made, hmade, -, -, hwritten, -, hkept, -⟩ :=
    (documents_apart hrun).2.2 (by decide) rfl hreport
  have hout : mixedFiles.createDirectories "out" = (.ok (), made) := hmade
  rw [hout] at hgood hbad
  obtain ⟨g, hg⟩ := isOk_iff.1 hgood
  obtain ⟨e, he⟩ := isOk_eq_false_iff.1 hbad
  obtain ⟨source, hsource, hread⟩ := hwritten "good.json" (by decide) g hg
  have hbad := hkept "bad.json" (by decide) e he
  rw [hpaths.1] at hread
  rw [hpaths.2] at hbad
  exact ⟨report, t', made, g, source, hrun, herror, hout, hg, hsource, hread, hbad⟩

end Options

end CommandLine

end TypedClient
