import HeaderLint.FileTree.Edit
import HeaderLint.Proofs.Path.Below

/-!
# Names in a file tree

In a file tree the entries of a directory have names that can be those of entries, and no two of
them have the same (`Node.isWellNamed`).  The type of trees does not say so, but every change to a
tree keeps it so: an entry is named by the last step of a path, and one with the same name goes
first.  So it holds of every file system that is made by changes from an empty tree
(`FileSystem.Made.isWellNamed`).
-/

namespace HeaderLint

/-! ## Trees with names that fit -/

namespace Node

mutual

/-- In every directory of the tree the entries have names that can be those of entries, and no
two have the same. -/
def isWellNamed : Node → Bool
  | .dir entries =>
    decide ((entries.map Prod.fst).Nodup ∧ ∀ name ∈ entries.map Prod.fst, IsEntryName name) &&
      entriesWellNamed entries
  | _ => true

/-- The trees in the entries of a directory are well named. -/
def entriesWellNamed : List (String × Node) → Bool
  | [] => true
  | (_, n) :: entries => n.isWellNamed && entriesWellNamed entries

end

theorem entriesWellNamed_iff {entries : List (String × Node)} :
    entriesWellNamed entries = true ↔ ∀ e ∈ entries, e.2.isWellNamed = true := by
  induction entries with
  | nil => simp [entriesWellNamed]
  | cons e entries ih =>
    obtain ⟨name, n⟩ := e
    simp [entriesWellNamed, ih]

theorem isWellNamed_dir_iff {entries : List (String × Node)} :
    (Node.dir entries).isWellNamed = true ↔
      (entries.map Prod.fst).Nodup ∧ ∀ e ∈ entries, IsEntryName e.1 ∧ e.2.isWellNamed = true := by
  rw [isWellNamed, Bool.and_eq_true, decide_eq_true_iff, entriesWellNamed_iff, List.forall_mem_map,
    and_assoc]
  exact and_congr_right fun _ =>
    ⟨fun h e he => ⟨h.1 e he, h.2 e he⟩, fun h => ⟨fun e he => (h e he).1, fun e he => (h e he).2⟩⟩

theorem isWellNamed_entries {n : Node} (h : n.isWellNamed = true) :
    (n.entries.map Prod.fst).Nodup ∧ ∀ e ∈ n.entries, IsEntryName e.1 ∧ e.2.isWellNamed = true := by
  cases n with
  | dir entries => exact isWellNamed_dir_iff.mp h
  | file content => exact ⟨List.nodup_nil, nofun⟩
  | link target => exact ⟨List.nodup_nil, nofun⟩

theorem mem_entries_of_child? {n child : Node} {name : String} (h : n.child? name = some child) :
    (name, child) ∈ n.entries := by
  obtain ⟨before, after, hentries, -⟩ := List.lookup_eq_some_iff.mp h
  rw [hentries]
  exact List.mem_append_right before List.mem_cons_self

theorem isWellNamed_at? {n m : Node} {l : Location} (h : n.isWellNamed = true)
    (hm : n.at? l = some m) : m.isWellNamed = true := by
  induction l generalizing n with
  | nil =>
    cases hm
    exact h
  | cons name names ih =>
    rw [at?, Option.bind_eq_some_iff] at hm
    obtain ⟨child, hchild, hm⟩ := hm
    exact ih ((isWellNamed_entries h).2 _ (mem_entries_of_child? hchild)).2 hm

/-- The names on the way to a node are those of entries. -/
theorem isEntryName_of_at? {n m : Node} {l : Location} (h : n.isWellNamed = true)
    (hm : n.at? l = some m) : ∀ name ∈ l, IsEntryName name := by
  induction l generalizing n with
  | nil => nofun
  | cons name names ih =>
    rw [at?, Option.bind_eq_some_iff] at hm
    obtain ⟨child, hchild, hm⟩ := hm
    obtain ⟨hname, hchild⟩ := (isWellNamed_entries h).2 _ (mem_entries_of_child? hchild)
    exact List.forall_mem_cons.mpr ⟨hname, ih hchild hm⟩

/-! ## Changes to the entries of a directory -/

section
variable {entries : List (String × Node)}

theorem isWellNamed_filter (h : (Node.dir entries).isWellNamed = true)
    (keep : String × Node → Bool) : (Node.dir (entries.filter keep)).isWellNamed = true := by
  obtain ⟨hnodup, hentries⟩ := isWellNamed_dir_iff.mp h
  refine isWellNamed_dir_iff.mpr ⟨?_, fun e he => hentries e (List.mem_filter.mp he).1⟩
  exact hnodup.sublist (List.filter_sublist.map _)

/-- An entry is put behind the others when the one with its name is gone. -/
theorem isWellNamed_put (h : (Node.dir entries).isWellNamed = true) {name : String} {n : Node}
    (hname : IsEntryName name) (hn : n.isWellNamed = true) :
    (Node.dir (entries.filter (fun e => e.1 != name) ++ [(name, n)])).isWellNamed = true := by
  obtain ⟨hnodup, hentries⟩ := isWellNamed_dir_iff.mp (isWellNamed_filter h fun e => e.1 != name)
  refine isWellNamed_dir_iff.mpr ⟨?_, fun e he => ?_⟩
  · rw [List.map_append, List.map_singleton, List.nodup_append]
    refine ⟨hnodup, List.pairwise_singleton _ _, fun a ha b hb => ?_⟩
    obtain ⟨e, he, rfl⟩ := List.mem_map.mp ha
    obtain rfl := List.mem_singleton.mp hb
    exact bne_iff_ne.mp (List.mem_filter.mp he).2
  · rcases List.mem_append.mp he with he | he
    · exact hentries e he
    · obtain rfl := List.mem_singleton.mp he
      exact ⟨hname, hn⟩

/-- A change that keeps the names of one directory in order keeps those of the tree. -/
theorem isWellNamed_changeEntries {f : List (String × Node) → List (String × Node)}
    (hf : ∀ entries, (Node.dir entries).isWellNamed = true →
      (Node.dir (f entries)).isWellNamed = true)
    (l : Location) {n : Node} (h : n.isWellNamed = true) :
    (n.changeEntries f l).isWellNamed = true := by
  induction l generalizing n with
  | nil =>
    cases n with
    | dir entries => exact hf entries h
    | file content => rfl
    | link target => rfl
  | cons name names ih =>
    cases n with
    | dir entries =>
      obtain ⟨hnodup, hentries⟩ := isWellNamed_dir_iff.mp h
      rw [changeEntries, isWellNamed_dir_iff, List.map_map]
      refine ⟨hnodup, fun e he => ?_⟩
      obtain ⟨⟨key, child⟩, hmem, rfl⟩ := List.mem_map.mp he
      obtain ⟨hkey, hchild⟩ := hentries _ hmem
      refine ⟨hkey, ?_⟩
      dsimp only
      split
      · exact ih hchild
      · exact hchild
    | file content => rfl
    | link target => rfl

end

end Node

/-! ## Steps -/

/-- A step that does not lead up has a name that can be that of an entry. -/
def AreSteps (steps : List String) : Prop := ∀ s ∈ steps, s ≠ ".." → IsEntryName s

theorem Path.areSteps (p : Path) : AreSteps p.steps := by
  intro s hs hup
  obtain ⟨hsegment, hs⟩ := List.mem_filter.mp hs
  rw [Bool.and_eq_true, bne_iff_ne, bne_iff_ne] at hs
  exact ⟨hs.1, hs.2, hup, slash_not_mem_of_mem_segments hsegment⟩

theorem AreSteps.of_subset {steps steps' : List String} (h : AreSteps steps)
    (hsubset : steps' ⊆ steps) : AreSteps steps' :=
  fun s hs => h s (hsubset hs)

/-! ## Changes to a file system -/

namespace FileSystem

section
variable {fs : FileSystem} {start : Place} {steps : List String} {n : Node}

theorem isEntryName_of_entry_eq_some (hsteps : AreSteps steps) {l : Location} {name : String}
    (h : fs.entry? start steps = some (l, name)) : IsEntryName name := by
  unfold entry? at h
  split at h
  · next last hlast =>
    split at h
    · next hup =>
      cases h
      rw [Bool.and_eq_true, bne_iff_ne] at hup
      exact hsteps name (List.mem_of_getLast? hlast) hup.1
    · cases h
  · cases h

theorem isWellNamed_setEntry (hfs : fs.root.isWellNamed = true) (l : Location) {name : String}
    (hname : IsEntryName name) (hn : n.isWellNamed = true) :
    (fs.setEntry l name n).root.isWellNamed = true :=
  Node.isWellNamed_changeEntries (fun _ h => Node.isWellNamed_put h hname hn) l hfs

theorem isWellNamed_addMissing (hfs : fs.root.isWellNamed = true) (hsteps : AreSteps steps)
    (hn : n.isWellNamed = true) : (fs.addMissing start steps n).root.isWellNamed = true := by
  rw [addMissing]
  split
  · next l name hentry =>
    split
    · exact hfs
    · exact isWellNamed_setEntry hfs l (isEntryName_of_entry_eq_some hsteps hentry) hn
  · exact hfs

theorem isWellNamed_addDirs (hfs : fs.root.isWellNamed = true) (hsteps : AreSteps steps) :
    (fs.addDirs start steps).root.isWellNamed = true := by
  rw [addDirs]
  generalize List.range steps.length = ks
  induction ks generalizing fs with
  | nil => exact hfs
  | cons k ks ih =>
    exact ih (isWellNamed_addMissing hfs (hsteps.of_subset (List.take_subset _ _)) rfl)

theorem isWellNamed_addDirsAbove (hfs : fs.root.isWellNamed = true) (p : Path) :
    (fs.addDirsAbove p).root.isWellNamed = true :=
  isWellNamed_addDirs hfs (p.areSteps.of_subset (List.dropLast_subset _))

theorem isWellNamed_put (hfs : fs.root.isWellNamed = true) (p : Path) (hn : n.isWellNamed = true) :
    (fs.put p n).root.isWellNamed = true := by
  rw [put]
  have habove := isWellNamed_addDirsAbove hfs p
  split
  · next l name hentry =>
    exact isWellNamed_setEntry habove l (isEntryName_of_entry_eq_some p.areSteps hentry) hn
  · exact habove

/-- Every link on the way leads on by the steps of its target. -/
theorem isWellNamed_writeFrom (hfs : fs.root.isWellNamed = true) (content : ByteArray)
    (links : Nat) (hsteps : AreSteps steps) :
    (fs.writeFrom content links start steps).root.isWellNamed = true := by
  fun_induction writeFrom fs content links start steps with
  | case1 => exact hfs
  | case2 => exact hfs
  | case3 => exact hfs
  | case4 _ _ _ _ _ target _ _ ih => exact ih target.areSteps
  | case5 _ _ _ l name hentry =>
    refine isWellNamed_setEntry hfs l (isEntryName_of_entry_eq_some hsteps hentry) ?_
    rfl

theorem isWellNamed_remove (hfs : fs.root.isWellNamed = true) (p : Path) :
    (fs.remove p).root.isWellNamed = true := by
  rw [remove]
  split
  · next l name _ =>
    exact Node.isWellNamed_changeEntries (fun _ h => Node.isWellNamed_filter h _) l hfs
  · exact hfs

theorem root_enter (fs : FileSystem) (p : Path) : (fs.enter p).root = fs.root := by
  rw [enter]
  split
  · split
    · rfl
    · rfl
  · rfl

end

/-- The file systems that are made by changes from an empty tree. -/
inductive Made : FileSystem → Prop where
  /-- The empty tree, with any place for the working directory. -/
  | empty (workingDir : Place) : Made ⟨.dir [], workingDir⟩
  | makeDir {fs : FileSystem} (p : Path) : Made fs → Made (fs.makeDir p)
  | makeLink {fs : FileSystem} (p target : Path) : Made fs → Made (fs.makeLink p target)
  /-- What is put somewhere is a tree with names that fit. -/
  | put {fs : FileSystem} {n : Node} (p : Path) : n.isWellNamed = true → Made fs → Made (fs.put p n)
  | write {fs : FileSystem} (p : Path) (content : ByteArray) : Made fs → Made (fs.write p content)
  | remove {fs : FileSystem} (p : Path) : Made fs → Made (fs.remove p)
  | enter {fs : FileSystem} (p : Path) : Made fs → Made (fs.enter p)

theorem Made.isWellNamed {fs : FileSystem} (h : Made fs) : fs.root.isWellNamed = true := by
  induction h with
  | empty workingDir => rfl
  | makeDir p _ ih => exact isWellNamed_addDirs ih p.areSteps
  | makeLink p target _ ih =>
    exact isWellNamed_addMissing (isWellNamed_addDirsAbove ih p) p.areSteps rfl
  | put p hn _ ih => exact isWellNamed_put ih p hn
  | write p content _ ih =>
    exact isWellNamed_writeFrom (isWellNamed_addDirsAbove ih p) content maxLinks p.areSteps
  | remove p _ ih => exact isWellNamed_remove ih p
  | enter p _ ih =>
    rw [root_enter]
    exact ih

end FileSystem

end HeaderLint
