import HeaderLint.Proofs.Walk.Selection
import HeaderLint.Report

/-!
# Selecting files never changes what is said about a file

The report of a run over a directory has one report for each source file of the walk, each as if
that file were checked alone with the root of the run as project root
(`FileSystem.entryReport`).  In a tree with names that fit, as all trees have that are made by
changes (`FileSystem.Made.isWellNamed`), no two of the files have the same path.  So the order of
the reports is settled by the paths, and does not depend on the order in which the files are
checked.

A file is checked against the file system and not against the other files of the run.  So a run
that selects fewer files reports on each of them what the wider run does
(`FileSystem.report_selects`), and a header that is left out is still compared with.
-/

namespace HeaderLint

namespace FileSystem

variable {fs : FileSystem} {config : Config} {root : Path} {o o' : WalkOptions}

theorem path_fileReport (fs : FileSystem) (config : Config) (p : Path) :
    (fs.fileReport config p).path = p := by
  rw [fileReport]
  cases fs.inventory p <;> rfl

/-- The working directory, when it is not gone, is a directory by the name of `.`. -/
theorem isDir_here {entries : List (String × Node)}
    (h : fs.workingDir.node? fs.root = some (.dir entries)) : fs.isDir ⟨"."⟩ = true := by
  have hsegments : Path.segments ⟨"."⟩ = ["."] := by decide
  have hresolve : fs.resolve? ⟨"."⟩ = some fs.workingDir := by
    rw [resolve?, if_neg (by decide), startOf, if_neg (by decide), hsegments, resolveFrom?, h]
    simp [resolveFrom?]
  rw [isDir, node?, hresolve, Option.bind_some, h]
  rfl

/-! ## A run over a directory -/

/-- The report of a source file that a run over a directory finds.  Without a project root in the
configuration the root of the run is one. -/
def entryReport (fs : FileSystem) (config : Config) (root : Path) (e : SourceEntry) : FileReport :=
  fs.fileReport { config with projectRoot := some (config.projectRoot.getD root) } e.path

theorem path_entryReport (e : SourceEntry) : (fs.entryReport config root e).path = e.path :=
  path_fileReport fs _ e.path

theorem map_path_entryReport (entries : List SourceEntry) :
    (entries.map (fs.entryReport config root)).map FileReport.path =
      entries.map SourceEntry.path := by
  rw [List.map_map]
  exact List.map_congr_left fun e _ => path_entryReport e

theorem runConfig_of_isDir (hdir : fs.isDir root = true) (config : Config) :
    fs.runConfig config root =
      { config with projectRoot := some (config.projectRoot.getD root) } := by
  rw [runConfig, hdir, Bool.and_true]
  obtain ⟨_, _, _, _, projectRoot, _, _, _⟩ := config
  cases projectRoot <;> rfl

/-- A run over a directory reports on the source files of the walk, if there are any. -/
theorem report_of_sourceFiles (hdir : fs.isDir root = true) {entries : List SourceEntry}
    (h : fs.sourceFiles root o = .ok entries) :
    fs.report config root o =
      if entries.isEmpty then .error (.noSourceFiles root)
      else .ok ⟨root, entries.map (fs.entryReport config root)⟩ := by
  rw [report, h, runConfig_of_isDir hdir]
  rfl

/-! ## Order -/

/-- The reports of a run come in strictly increasing order of their paths. -/
theorem pairwise_before_entryReports (config : Config) (hnamed : fs.root.isWellNamed = true)
    (hdir : fs.isDir root = true) {entries : List SourceEntry}
    (h : fs.sourceFiles root o = .ok entries) :
    (entries.map (fs.entryReport config root)).Pairwise fun a b => a.path.Before b.path := by
  obtain ⟨hnodup, hle⟩ := ordered_sourceFiles hnamed hdir h
  rw [List.pairwise_map]
  refine (Path.pairwise_before hnodup hle).imp fun hbefore => ?_
  rw [path_entryReport, path_entryReport]
  exact hbefore

/-- In whatever order the files are checked, the reports sorted by their paths are the same. -/
theorem mergeSort_entryReports (hnamed : fs.root.isWellNamed = true)
    (hdir : fs.isDir root = true) {entries order : List SourceEntry}
    (h : fs.sourceFiles root o = .ok entries) (horder : order.Perm entries) :
    ((order.map (fs.entryReport config root)).mergeSort fun a b => a.path.le b.path) =
      entries.map (fs.entryReport config root) := by
  have hbefore := pairwise_before_entryReports config hnamed hdir h
  refine (Path.eq_of_perm_of_pairwise_le ?_ ?_ (hbefore.imp fun h => h.1)
    (Path.pairwise_le_mergeSort FileReport.path _)).symm
  · exact ((List.mergeSort_perm _ _).trans (horder.map _)).symm
  · exact List.pairwise_map.mpr (hbefore.imp fun h => h.2)

/-! ## Selections -/

/-- A run over a directory reports on the source files of the walk one by one, in strictly
increasing order of their paths, whatever the order in which they are checked.  It fails only if
there are none.

A narrower run reports on the files of the wider run that it selects, and says of each what the
wider run does.  It fails if none of them is left. -/
theorem report_selects (fs : FileSystem) (config : Config) {root : Path}
    (hnamed : fs.root.isWellNamed = true) (hdir : fs.isDir root = true) :
    (∀ o : WalkOptions,
      match fs.report config root o with
      | .error e => e = .noSourceFiles root ∧ fs.sourceFiles root o = .ok []
      | .ok r =>
        r.root = root ∧
          ∃ entries, fs.sourceFiles root o = .ok entries ∧
            r.files = entries.map (fs.entryReport config root) ∧
            (r.files.Pairwise fun a b => a.path.Before b.path) ∧
            ∀ order : List SourceEntry, order.Perm entries →
              ((order.map (fs.entryReport config root)).mergeSort fun a b => a.path.le b.path) =
                r.files) ∧
    ∀ o o' : WalkOptions, o'.Narrows o →
      match fs.report config root o with
      | .error _ => fs.report config root o' = .error (.noSourceFiles root)
      | .ok r =>
        (∃ entries, fs.sourceFiles root o' = .ok entries ∧
          (r.files.filter fun f => o'.selects root f.path).map FileReport.path =
            entries.map SourceEntry.path) ∧
        fs.report config root o' =
          if (r.files.filter fun f => o'.selects root f.path).isEmpty then
            .error (.noSourceFiles root)
          else .ok ⟨root, r.files.filter fun f => o'.selects root f.path⟩ := by
  have hwalk : ∀ o, ∃ entries, fs.sourceFiles root o = .ok entries := fun o => by
    obtain ⟨place, -, hentries⟩ := sourceFiles_of_isDir hdir o
    exact ⟨_, hentries⟩
  constructor
  · intro o
    obtain ⟨entries, hentries⟩ := hwalk o
    rw [report_of_sourceFiles hdir hentries]
    cases entries with
    | nil => exact ⟨rfl, hentries⟩
    | cons e entries =>
      exact ⟨rfl, e :: entries, hentries, rfl,
        pairwise_before_entryReports config hnamed hdir hentries,
        fun order horder => mergeSort_entryReports hnamed hdir hentries horder⟩
  · intro o o' h
    obtain ⟨entries, hentries⟩ := hwalk o
    have hnarrow := sourceFiles_narrows hnamed hdir h hentries
    have hfilter : (entries.map (fs.entryReport config root)).filter
          (fun f => o'.selects root f.path) =
        (entries.filter fun e => o'.selects root e.path).map (fs.entryReport config root) := by
      rw [List.filter_map]
      congr 1
      refine List.filter_congr fun e _ => ?_
      rw [Function.comp, path_entryReport]
    rw [report_of_sourceFiles hdir hentries, report_of_sourceFiles hdir hnarrow]
    cases entries with
    | nil => rfl
    | cons e entries =>
      rw [List.isEmpty_cons, if_neg Bool.false_ne_true]
      dsimp only
      rw [hfilter, List.isEmpty_map]
      exact ⟨⟨_, hnarrow, map_path_entryReport _⟩, rfl⟩

/-- A tree with an implementation, its header, and another implementation further below. -/
def threeFiles : FileSystem where
  root := .dir [("a.c", .file "int f(int a) \x7b\x7d\n".toUTF8),
    ("a.h", .file "int f(void);\n".toUTF8),
    ("below", .dir [("b.c", .file "int g(void) \x7b\x7d\n".toUTF8)])]
  workingDir := .root

/-- Of three files the narrower run leaves out the header and what is below another directory. -/
theorem report_selects_threeFiles :
    threeFiles.root.isWellNamed = true ∧ threeFiles.isDir ⟨"."⟩ = true ∧
    WalkOptions.Narrows { maxDepth := some 1, exclude := [[.run, .char 'h']] } {} ∧
    (match threeFiles.report {} ⟨"."⟩ {} with
      | .error e => e = .noSourceFiles ⟨"."⟩ ∧ threeFiles.sourceFiles ⟨"."⟩ {} = .ok []
      | .ok r =>
        r.root = ⟨"."⟩ ∧
          ∃ entries, threeFiles.sourceFiles ⟨"."⟩ {} = .ok entries ∧
            r.files = entries.map (threeFiles.entryReport {} ⟨"."⟩) ∧
            (r.files.Pairwise fun a b => a.path.Before b.path) ∧
            ∀ order : List SourceEntry, order.Perm entries →
              ((order.map (threeFiles.entryReport {} ⟨"."⟩)).mergeSort
                fun a b => a.path.le b.path) = r.files) ∧
    match threeFiles.report {} ⟨"."⟩ {} with
    | .error _ =>
      threeFiles.report {} ⟨"."⟩ { maxDepth := some 1, exclude := [[.run, .char 'h']] } =
        .error (.noSourceFiles ⟨"."⟩)
    | .ok r =>
      (∃ entries,
        threeFiles.sourceFiles ⟨"."⟩ { maxDepth := some 1, exclude := [[.run, .char 'h']] } =
          .ok entries ∧
        (r.files.filter fun f => WalkOptions.selects
            { maxDepth := some 1, exclude := [[.run, .char 'h']] } ⟨"."⟩ f.path).map
              FileReport.path = entries.map SourceEntry.path) ∧
      threeFiles.report {} ⟨"."⟩ { maxDepth := some 1, exclude := [[.run, .char 'h']] } =
        if (r.files.filter fun f => WalkOptions.selects
            { maxDepth := some 1, exclude := [[.run, .char 'h']] } ⟨"."⟩ f.path).isEmpty then
          .error (.noSourceFiles ⟨"."⟩)
        else .ok ⟨⟨"."⟩, r.files.filter fun f => WalkOptions.selects
          { maxDepth := some 1, exclude := [[.run, .char 'h']] } ⟨"."⟩ f.path⟩ := by
  have hnamed : threeFiles.root.isWellNamed = true := by decide +kernel
  have hdir : threeFiles.isDir ⟨"."⟩ = true := isDir_here rfl
  have hnarrows :
      WalkOptions.Narrows { maxDepth := some 1, exclude := [[.run, .char 'h']] } {} :=
    ⟨rfl, rfl, rfl, nofun, nofun⟩
  exact ⟨hnamed, hdir, hnarrows, (report_selects threeFiles {} hnamed hdir).1 {},
    (report_selects threeFiles {} hnamed hdir).2 _ _ hnarrows⟩

end FileSystem

end HeaderLint
