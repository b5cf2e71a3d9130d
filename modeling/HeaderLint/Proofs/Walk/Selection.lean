import HeaderLint.Proofs.Path.Order
import HeaderLint.Proofs.Walk.Files

/-!
# What a walk selects

Two of the options of a walk select files and do nothing else: the greatest depth and the exclude
patterns.  A file is selected by the names on the way from the root to it, which its path tells
(`WalkOptions.selects`).

So a walk with more exclude patterns or a smaller depth finds those files of the wider walk that
it selects, in the same order (`FileSystem.sourceFiles_narrows`).  It visits every directory on the
way to such a file as the wider walk does, and a directory that it does not visit has no such file.
-/

namespace HeaderLint

/-! ## Options -/

namespace WalkOptions

/-- The names from the root to a file are not too many. -/
def inDepth (o : WalkOptions) (names : List String) : Bool :=
  o.maxDepth.all fun depth => decide (names.length ≤ depth)

/-- A file with this path is not too deep below the root, and no exclude pattern matches its
path from there. -/
def selects (o : WalkOptions) (root p : Path) : Bool :=
  o.inDepth (root.namesBelow p) && !o.excludes ("/".intercalate (root.namesBelow p))

/-- The options differ in nothing but further exclude patterns and a smaller depth. -/
structure Narrows (o' o : WalkOptions) : Prop where
  /-- The same links are followed. -/
  followLinks_eq : o'.followLinks = o.followLinks
  /-- Hidden entries are wanted in both or in none. -/
  includeHidden_eq : o'.includeHidden = o.includeHidden
  /-- The same ignore files count. -/
  useGit_eq : o'.useGit = o.useGit
  /-- No exclude pattern is dropped. -/
  exclude_subset : ∀ p ∈ o.exclude, p ∈ o'.exclude
  /-- The greatest depth does not grow. -/
  maxDepth_le : ∀ depth, o.maxDepth = some depth → ∃ depth' ≤ depth, o'.maxDepth = some depth'

variable {o o' : WalkOptions}

theorem Narrows.inDepth (h : o'.Narrows o) {names : List String} (hin : o'.inDepth names = true) :
    o.inDepth names = true := by
  rw [WalkOptions.inDepth] at hin ⊢
  cases hdepth : o.maxDepth with
  | none => rfl
  | some depth =>
    obtain ⟨depth', hle, hdepth'⟩ := h.maxDepth_le depth hdepth
    rw [hdepth'] at hin
    simp only [Option.all_some, decide_eq_true_iff] at hin ⊢
    omega

theorem Narrows.excludes (h : o'.Narrows o) {text : String} (hex : o.excludes text = true) :
    o'.excludes text = true := by
  obtain ⟨p, hp, hmatch⟩ := List.any_eq_true.mp hex
  exact List.any_eq_true.mpr ⟨p, h.exclude_subset p hp, hmatch⟩

/-- A walk stops at a directory when an entry of it would be too deep. -/
theorem stops_eq (o : WalkOptions) (names : List String) (name : String) :
    (o.maxDepth.any fun depth => decide (depth ≤ names.length)) =
      !o.inDepth (names ++ [name]) := by
  rw [WalkOptions.inDepth]
  cases o.maxDepth with
  | none => rfl
  | some depth =>
    rw [Option.any_some, Option.all_some, List.length_append, List.length_singleton,
      ← decide_not, decide_eq_decide]
    omega

/-- What is below something too deep is too deep. -/
theorem inDepth_of_append {names more : List String} (h : o.inDepth (names ++ more) = true) :
    o.inDepth names = true := by
  rw [WalkOptions.inDepth] at h ⊢
  cases hdepth : o.maxDepth with
  | none => rfl
  | some depth =>
    simp only [hdepth, Option.all_some, decide_eq_true_iff, List.length_append] at h ⊢
    omega

end WalkOptions

open WalkOptions (Narrows)

/-! ## Below a directory -/

namespace WalkContext

variable {w : WalkContext} {d : WalkDir} {o' : WalkOptions}

theorem target?_narrows (h : o'.Narrows w.options) (path : Path) (n : Node) :
    target? { w with options := o' } d path n = w.target? d path n := by
  cases n with
  | link target =>
    simp only [target?]
    rw [h.followLinks_eq]
    rfl
  | file content => rfl
  | dir entries => rfl

theorem passesOver_narrows (h : o'.Narrows w.options) (path : Path) (name : String)
    (isDir : Bool) :
    passesOver { w with options := o' } path d name isDir = w.passesOver path d name isDir := by
  rw [passesOver, passesOver, h.includeHidden_eq]

theorem enter?_narrows (h : o'.Narrows w.options) (path : Path) (name : String) :
    enter? { w with options := o' } d path name = w.enter? d path name := by
  rw [enter?, enter?, h.useGit_eq]

theorem visit_narrows (h : o'.Narrows w.options) (d : WalkDir) (e : String × Node) :
    visit { w with options := o' } d e = w.visit d e := by
  simp only [visit, target?_narrows h, passesOver_narrows h, enter?_narrows h]

theorem filesBelow_narrows (hroot : w.fs.root.isWellNamed = true) (h : o'.Narrows w.options)
    (fuel : Nat) (hd : d.path.text ≠ "") :
    filesBelow { w with options := o' } fuel d =
      (w.filesBelow fuel d).filter fun file => o'.inDepth file.2 := by
  induction fuel generalizing d with
  | zero => rfl
  | succ fuel ih =>
    cases hstop : o'.maxDepth.any fun depth => decide (depth ≤ d.names.length) with
    | true =>
      rw [filesBelow_succ, if_pos hstop, eq_comm, List.filter_eq_nil_iff]
      intro file hfile hin
      obtain ⟨names, hnames, hlead⟩ := exists_leadTo_of_mem_filesBelow hroot hd hfile
      obtain ⟨name, rest, rfl⟩ := List.exists_cons_of_ne_nil hnames
      rw [hlead.names_eq, List.append_cons] at hin
      rw [o'.stops_eq d.names name, WalkOptions.inDepth_of_append hin] at hstop
      cases hstop
    | false =>
      have hgoes : ∀ name, o'.inDepth (d.names ++ [name]) = true := fun name => by
        rw [o'.stops_eq d.names name, Bool.not_eq_false'] at hstop
        exact hstop
      have hgoes' :
          (w.options.maxDepth.any fun depth => decide (depth ≤ d.names.length)) = false := by
        rw [w.options.stops_eq d.names "", h.inDepth (hgoes ""), Bool.not_true]
      rw [filesBelow_succ, filesBelow_succ, hstop, hgoes', if_neg Bool.false_ne_true,
        if_neg Bool.false_ne_true, List.filter_flatMap, List.flatMap_def, List.flatMap_def]
      refine congrArg List.flatten (List.map_congr_left fun e he => ?_)
      have hname := (isWellNamed_entries hroot d).2 e he
      rw [visit_narrows h]
      rcases visit_cases w d e with hvisit | ⟨below, hvisit, hpath, -⟩ | hvisit
      · rw [hvisit]
        rfl
      · rw [hvisit]
        refine ih ?_
        rw [hpath]
        exact Path.text_join_ne_empty hname
      · rw [hvisit]
        simp only [Visit.files, List.filter_cons, List.filter_nil, hgoes e.1, if_true]

end WalkContext

/-! ## The walk -/

theorem SourceEntry.path_of_ofPath? {p : Path} {e : SourceEntry} (h : ofPath? p = some e) :
    e.path = p := by
  obtain ⟨kind, -, rfl⟩ := Option.map_eq_some_iff.mp h
  rfl

namespace FileSystem

variable {fs : FileSystem} {root : Path} {place : Place} {o o' : WalkOptions}

theorem text_ne_empty_of_resolve? (h : fs.resolve? root = some place) : root.text ≠ "" := by
  intro hempty
  simp [resolve?, hempty] at h

theorem components_of_mem_filesBelow (hnamed : fs.root.isWellNamed = true) (hroot : root.text ≠ "")
    {file : Path × List String} (h : file ∈ fs.filesBelow root place o) :
    file.1.components = root.components ++ file.2.map .name := by
  obtain ⟨names, -, hlead⟩ := WalkContext.exists_leadTo_of_mem_filesBelow hnamed hroot h
  rw [hlead.components_eq, hlead.names_eq]
  rfl

theorem pairwise_filesBelow (hnamed : fs.root.isWellNamed = true) (hroot : root.text ≠ "") :
    (fs.filesBelow root place o).Pairwise fun f g => f.1.components ≠ g.1.components :=
  WalkContext.pairwise_filesBelow hnamed _ hroot

theorem filesBelow_narrows (hnamed : fs.root.isWellNamed = true) (h : o'.Narrows o)
    (hroot : root.text ≠ "") :
    fs.filesBelow root place o' =
      (fs.filesBelow root place o).filter fun file => o'.inDepth file.2 := by
  rw [filesBelow, filesBelow, h.useGit_eq]
  exact WalkContext.filesBelow_narrows (w := ⟨fs, o, root, pathOf place.location, _⟩) hnamed h _
    hroot

/-- The source files that a walk below a directory finds, in the order of the walk. -/
def sourceEntries (fs : FileSystem) (root : Path) (place : Place) (o : WalkOptions) :
    List SourceEntry :=
  ((fs.filesBelow root place o).filter fun file => !o.excludes ("/".intercalate file.2)).filterMap
    fun file => SourceEntry.ofPath? file.1

theorem pairwise_sourceEntries (hnamed : fs.root.isWellNamed = true) (hroot : root.text ≠ "") :
    (fs.sourceEntries root place o).Pairwise fun a b => a.path.components ≠ b.path.components := by
  rw [sourceEntries, List.pairwise_filterMap]
  refine ((pairwise_filesBelow hnamed hroot).filter _).imp fun hne a ha b hb => ?_
  rw [SourceEntry.path_of_ofPath? ha, SourceEntry.path_of_ofPath? hb]
  exact hne

theorem sourceEntries_narrows (hnamed : fs.root.isWellNamed = true) (h : o'.Narrows o)
    (hroot : root.text ≠ "") :
    fs.sourceEntries root place o' =
      (fs.sourceEntries root place o).filter fun e => o'.selects root e.path := by
  rw [sourceEntries, sourceEntries, filesBelow_narrows hnamed h hroot, List.filter_filterMap,
    List.filter_filter, List.filterMap_filter, List.filterMap_filter]
  refine List.filterMap_congr fun file hfile => ?_
  have hnames : root.namesBelow file.1 = file.2 :=
    Path.namesBelow_of_components (components_of_mem_filesBelow hnamed hroot hfile)
  cases hentry : SourceEntry.ofPath? file.1 with
  | none => simp
  | some e =>
    have hselects : o'.selects root e.path =
        (o'.inDepth file.2 && !o'.excludes ("/".intercalate file.2)) := by
      rw [WalkOptions.selects, SourceEntry.path_of_ofPath? hentry, hnames]
    rw [Option.filter_some, hselects]
    cases hexcludes : o.excludes ("/".intercalate file.2) with
    | true => simp [h.excludes hexcludes]
    | false => simp [Bool.and_comm]

/-- Below a directory the source files are those that the walk finds, in the order of their
paths.  There are none below the standard input. -/
theorem sourceFiles_of_isDir (hdir : fs.isDir root = true) (o : WalkOptions) :
    ∃ place, fs.resolve? root = some place ∧
      fs.sourceFiles root o =
        .ok (if root.sameAs ⟨"-"⟩ then []
          else (fs.sourceEntries root place o).mergeSort fun a b => a.path.le b.path) := by
  obtain ⟨n, hnode, hn⟩ := (Option.any_eq_true _ _).mp hdir
  obtain ⟨place, hplace, -⟩ := Option.bind_eq_some_iff.mp hnode
  have hfile : fs.isFile root = false := by
    rw [isFile, hnode, Option.any_some]
    cases n with
    | dir entries => rfl
    | file content => cases hn
    | link target => cases hn
  refine ⟨place, hplace, ?_⟩
  rw [sourceFiles, hplace]
  dsimp only
  rw [hfile, if_neg Bool.false_ne_true]
  split <;> rfl

/-- No two source files have the same components, and they come in the order of their paths. -/
theorem ordered_sourceFiles (hnamed : fs.root.isWellNamed = true) (hdir : fs.isDir root = true)
    {entries : List SourceEntry} (h : fs.sourceFiles root o = .ok entries) :
    (entries.map fun e => e.path.components).Nodup ∧
      entries.Pairwise fun a b => a.path.le b.path = true := by
  obtain ⟨place, hplace, hentries⟩ := sourceFiles_of_isDir hdir o
  rw [hentries] at h
  cases h
  split
  · exact ⟨List.nodup_nil, List.Pairwise.nil⟩
  · refine ⟨?_, Path.pairwise_le_mergeSort SourceEntry.path _⟩
    rw [((List.mergeSort_perm _ _).map _).nodup_iff, List.Nodup, List.pairwise_map]
    exact pairwise_sourceEntries hnamed (text_ne_empty_of_resolve? hplace)

/-- A narrower walk finds the source files of the wider one that it selects. -/
theorem sourceFiles_narrows (hnamed : fs.root.isWellNamed = true) (hdir : fs.isDir root = true)
    (h : o'.Narrows o) {entries : List SourceEntry}
    (hentries : fs.sourceFiles root o = .ok entries) :
    fs.sourceFiles root o' = .ok (entries.filter fun e => o'.selects root e.path) := by
  obtain ⟨place, hplace, hwide⟩ := sourceFiles_of_isDir hdir o
  obtain ⟨place', hplace', hnarrow⟩ := sourceFiles_of_isDir hdir o'
  obtain rfl : place' = place := Option.some.inj (hplace'.symm.trans hplace)
  obtain ⟨hnodup, hle⟩ := ordered_sourceFiles hnamed hdir hentries
  rw [hwide, Except.ok.injEq] at hentries
  rw [hnarrow, Except.ok.injEq]
  split
  · next hinput =>
    rw [if_pos hinput] at hentries
    rw [← hentries, List.filter_nil]
  · next hinput =>
    rw [if_neg hinput] at hentries
    have hperm : ((fs.sourceEntries root place' o').mergeSort fun a b => a.path.le b.path).Perm
        (entries.filter fun e => o'.selects root e.path) := by
      refine (List.mergeSort_perm _ _).trans ?_
      rw [sourceEntries_narrows hnamed h (text_ne_empty_of_resolve? hplace), ← hentries]
      exact ((List.mergeSort_perm _ _).filter _).symm
    refine (Path.eq_of_perm_of_pairwise_le hperm.symm ?_ (hle.filter _)
      (Path.pairwise_le_mergeSort SourceEntry.path _)).symm
    exact hnodup.sublist (List.filter_sublist.map _)

end FileSystem

end HeaderLint
