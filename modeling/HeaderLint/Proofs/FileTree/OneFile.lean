import HeaderLint.Proofs.FileTree.Names
import HeaderLint.Proofs.FileTree.Resolve

/-!
# One file more

Making a file, or removing one, changes a tree in one location (`FileSystem.AddsFile`).  Nothing
leads on from there, neither with the file nor without it.  So a path that resolves without the
file resolves to the same place with it, and a path that does not, does so with the file only when
it stands for the file (`FileSystem.AddsFile.resolve?`).  Whether a path stands for some file
changes in that case only (`FileSystem.AddsFile.isFile_iff`).

Writing to a new path and removing a path are such changes (`FileSystem.addsFile_write`,
`FileSystem.addsFile_remove`).
-/

namespace HeaderLint

/-! ## Two trees that differ in one file -/

namespace Node

/-- The second tree has a file at a location where the first has nothing, and is like the first
everywhere else. -/
structure AddsFile (l : Location) (n m : Node) : Prop where
  before : n.formAt? l = none
  after : m.formAt? l = some .file
  other : ∀ l', l' ≠ l → m.formAt? l' = n.formAt? l'

section
variable {n m : Node} {l : Location}

theorem AddsFile.form?_eq (h : AddsFile l n m) {p : Place} (hp : p ≠ ⟨l, 0⟩) :
    p.form? m = p.form? n := by
  rw [Place.form?_eq, Place.form?_eq]
  split
  · next hgone =>
    refine h.other _ fun hl => hp ?_
    rw [← hl, ← hgone]
  · rfl

theorem AddsFile.entryForm?_eq (h : AddsFile l n m) {p : Place} {name : String}
    (hp : p.child name ≠ ⟨l, 0⟩) : p.entryForm? m name = p.entryForm? n name := by
  rw [Place.entryForm?_eq, Place.entryForm?_eq]
  split
  · next hgone =>
    refine h.other _ fun hl => hp ?_
    rw [Place.child, hl, hgone]
  · rfl

/-- A segment leads where it led, unless it names the file. -/
theorem AddsFile.turn? (h : AddsFile l n m) (links : Nat) (here : Place) (segment : String) :
    FileSystem.turn? m links here segment = FileSystem.turn? n links here segment ∨
      FileSystem.turn? n links here segment = none ∧
        FileSystem.turn? m links here segment = some { links, place := ⟨l, 0⟩ } := by
  by_cases hhere : here = ⟨l, 0⟩
  · -- neither a file nor nothing is a directory to go on from
    refine .inl ?_
    rw [FileSystem.turn?, FileSystem.turn?, Place.form?_eq, Place.form?_eq, hhere, if_pos rfl,
      if_pos rfl, h.before, h.after]
  rw [FileSystem.turn?, FileSystem.turn?, h.form?_eq hhere]
  by_cases hchild : here.child segment = ⟨l, 0⟩
  · obtain ⟨hlocation, hgone⟩ := Place.mk.inj hchild
    have hbefore : here.entryForm? n segment = none := by
      rw [Place.entryForm?_eq, if_pos hgone, hlocation, h.before]
    have hafter : here.entryForm? m segment = some .file := by
      rw [Place.entryForm?_eq, if_pos hgone, hlocation, h.after]
    rw [hbefore, hafter]
    split
    · split
      · exact .inl rfl
      · split
        · exact .inl rfl
        · exact .inr ⟨rfl, by rw [← hchild]; rfl⟩
    · exact .inl rfl
  · rw [h.entryForm?_eq hchild]
    exact .inl rfl

/-- A path leads where it led, unless it stands for the file. -/
theorem AddsFile.resolveFrom? (h : AddsFile l n m) (links : Nat) (here : Place)
    (segments : List String) :
    FileSystem.resolveFrom? m links here segments =
      FileSystem.resolveFrom? n links here segments ∨
        FileSystem.resolveFrom? n links here segments = none ∧
          FileSystem.resolveFrom? m links here segments = some ⟨l, 0⟩ := by
  induction links, here, segments using FileSystem.resolve_induction n with
  | nil links here =>
    rw [FileSystem.resolveFrom?_nil, FileSystem.resolveFrom?_nil]
    exact .inl rfl
  | cons links here segment rest ih =>
    rw [FileSystem.resolveFrom?_cons, FileSystem.resolveFrom?_cons]
    rcases h.turn? links here segment with heq | ⟨hbefore, hafter⟩
    · rw [heq]
      cases hturn : FileSystem.turn? n links here segment with
      | none => exact .inl rfl
      | some t => exact ih t hturn
    · -- the segment names the file, so the path stands for it if nothing follows
      rw [hbefore, hafter, Option.bind_none, Option.bind_some, List.nil_append]
      by_cases hrest : rest = []
      · rw [hrest, FileSystem.resolveFrom?_nil]
        exact .inr ⟨rfl, rfl⟩
      · refine .inl (FileSystem.resolveFrom?_of_not_dir ?_ hrest)
        rw [Place.form?_eq, if_pos rfl, h.after]
        nofun

/-! ## A change to the entries of a directory -/

variable {entries : List (String × Node)} {name : String}
  {f : List (String × Node) → List (String × Node)}

theorem lookup_map_at (g : Node → Node) (entries : List (String × Node)) (key : String) :
    (entries.map fun (k, c) => (k, if k = name then g c else c)).lookup key =
      (entries.lookup key).map fun c => if key = name then g c else c := by
  induction entries with
  | nil => rfl
  | cons e entries ih =>
    obtain ⟨k, c⟩ := e
    rw [List.map_cons, List.lookup_cons, List.lookup_cons, ih]
    split
    · next hk => rw [Option.map_some, beq_iff_eq.mp hk]
    · rfl

theorem child?_changeEntries_self {c : Node} (hc : (Node.dir entries).child? name = some c)
    (names : Location) :
    ((Node.dir entries).changeEntries f (name :: names)).child? name =
      some (c.changeEntries f names) := by
  refine (lookup_map_at _ entries name).trans ?_
  rw [show entries.lookup name = some c from hc, Option.map_some, if_pos rfl]

theorem child?_changeEntries_of_ne {key : String} (hkey : key ≠ name) (names : Location) :
    ((Node.dir entries).changeEntries f (name :: names)).child? key =
      (Node.dir entries).child? key := by
  refine (lookup_map_at _ entries key).trans ?_
  simp only [hkey, if_false, Option.map_id']
  rfl

/-- The directory itself has the changed entries. -/
theorem at?_changeEntries (h : n.at? l = some (.dir entries)) :
    (n.changeEntries f l).at? l = some (.dir (f entries)) := by
  induction l generalizing n with
  | nil =>
    cases h
    rfl
  | cons name names ih =>
    rw [at?, Option.bind_eq_some_iff] at h
    obtain ⟨c, hc, h⟩ := h
    cases n with
    | dir es => rw [at?, child?_changeEntries_self hc, Option.bind_some, ih h]
    | file content => cases hc
    | link target => cases hc

/-- A change to one entry of a directory is seen at that entry and below it only. -/
theorem formAt?_changeEntries (h : n.at? l = some (.dir entries))
    (hf : ∀ key, key ≠ name → (f entries).lookup key = entries.lookup key) {l' : Location}
    (hl' : ¬l ++ [name] <+: l') : (n.changeEntries f l).formAt? l' = n.formAt? l' := by
  induction l generalizing n l' with
  | nil =>
    cases h
    cases l' with
    | nil => rfl
    | cons key rest =>
      have hkey : key ≠ name := by
        rintro rfl
        exact hl' (List.prefix_append [key] rest)
      exact congrArg (fun c => (Option.bind c fun m => m.at? rest).map form) (hf key hkey)
  | cons first names ih =>
    rw [at?, Option.bind_eq_some_iff] at h
    obtain ⟨c, hc, h⟩ := h
    cases n with
    | dir es =>
      cases l' with
      | nil => rfl
      | cons key rest =>
        rw [formAt?, formAt?, at?, at?]
        by_cases hkey : key = first
        · subst hkey
          have hrest : ¬names ++ [name] <+: rest := fun hprefix =>
            hl' (List.cons_prefix_cons.mpr ⟨rfl, hprefix⟩)
          rw [child?_changeEntries_self hc, hc]
          exact ih h hrest
        · rw [child?_changeEntries_of_ne hkey]
    | file content => cases hc
    | link target => cases hc

theorem formAt?_append_eq_none (h : n.formAt? l ≠ some .dir) {rest : Location} (hrest : rest ≠ []) :
    n.formAt? (l ++ rest) = none := by
  obtain ⟨name, rest, rfl⟩ := List.exists_cons_of_ne_nil hrest
  rw [formAt?, at?_append]
  cases hn : n.at? l with
  | none => rfl
  | some c =>
    cases c with
    | file content => rfl
    | link target => rfl
    | dir entries =>
      rw [formAt?, hn] at h
      exact absurd rfl h

/-- A change to one entry that is no directory, neither before nor after, is seen at the entry
only. -/
theorem formAt?_changeEntries_of_ne (h : n.at? l = some (.dir entries))
    (hf : ∀ key, key ≠ name → (f entries).lookup key = entries.lookup key)
    (hbefore : n.formAt? (l ++ [name]) ≠ some .dir)
    (hafter : (n.changeEntries f l).formAt? (l ++ [name]) ≠ some .dir) {l' : Location}
    (hl' : l' ≠ l ++ [name]) : (n.changeEntries f l).formAt? l' = n.formAt? l' := by
  by_cases hprefix : l ++ [name] <+: l'
  · obtain ⟨rest, rfl⟩ := hprefix
    have hrest : rest ≠ [] := by
      rintro rfl
      exact hl' (List.append_nil _)
    rw [formAt?_append_eq_none hbefore hrest, formAt?_append_eq_none hafter hrest]
  · exact formAt?_changeEntries h hf hprefix

theorem formAt?_entry (h : n.at? l = some (.dir entries)) (name : String) :
    n.formAt? (l ++ [name]) = (entries.lookup name).map form := by
  rw [formAt?, at?_append, h, Option.bind_some, at?_singleton]
  rfl

theorem lookup_filter_ne {key : String} (hkey : key ≠ name) :
    (entries.filter fun e => e.1 != name).lookup key = entries.lookup key := by
  induction entries with
  | nil => rfl
  | cons e entries ih =>
    obtain ⟨k, c⟩ := e
    by_cases hk : k = name
    · rw [List.filter_cons_of_neg (by simp [hk]), ih, List.lookup_cons,
        beq_false_of_ne (hk ▸ hkey)]
    · rw [List.filter_cons_of_pos (by simp [hk]), List.lookup_cons, List.lookup_cons, ih]

theorem lookup_filter_self :
    (entries.filter fun e => e.1 != name).lookup name = none := by
  rw [List.lookup_eq_none_iff]
  intro e he
  exact bne_iff_ne.mpr (bne_iff_ne.mp (List.mem_filter.mp he).2).symm

/-- A file that is put where nothing is. -/
theorem addsFile_put (h : n.at? l = some (.dir entries)) (hnone : n.formAt? (l ++ [name]) = none)
    (content : ByteArray) :
    n.AddsFile (l ++ [name]) (n.changeEntries
      (fun es => es.filter (fun e => e.1 != name) ++ [(name, .file content)]) l) := by
  have hafter := formAt?_entry (at?_changeEntries
    (f := fun es => es.filter (fun e => e.1 != name) ++ [(name, .file content)]) h) name
  rw [List.lookup_append, lookup_filter_self, Option.none_or, List.lookup_cons_self] at hafter
  refine ⟨hnone, hafter, fun l' hl' => formAt?_changeEntries_of_ne h (fun key hkey => ?_) ?_ ?_ hl'⟩
  · rw [List.lookup_append, lookup_filter_ne hkey, List.lookup_cons, beq_false_of_ne hkey]
    exact Option.or_none
  · rw [hnone]
    nofun
  · rw [hafter]
    nofun

/-- A file that is taken away. -/
theorem addsFile_filter (h : n.at? l = some (.dir entries))
    (hfile : n.formAt? (l ++ [name]) = some .file) :
    (n.changeEntries (fun es => es.filter fun e => e.1 != name) l).AddsFile (l ++ [name]) n := by
  have hbefore := formAt?_entry (at?_changeEntries
    (f := fun es => es.filter fun e => e.1 != name) h) name
  rw [lookup_filter_self, Option.map_none] at hbefore
  refine ⟨hbefore, hfile, fun l' hl' => (formAt?_changeEntries_of_ne h
    (fun key hkey => lookup_filter_ne hkey) ?_ ?_ hl').symm⟩
  · rw [hfile]
    nofun
  · rw [hbefore]
    nofun

end

end Node

namespace Place

/-- The names of the directories at a place that are not gone. -/
def kept (p : Place) : Location := p.location.take (p.location.length - p.gone)

end Place

/-! ## Two file systems that differ in one file -/

namespace FileSystem

/-- The second file system has a file at a location where the first has nothing, and is like the
first everywhere else. -/
structure AddsFile (l : Location) (fs fs' : FileSystem) : Prop where
  workingDir : fs'.workingDir = fs.workingDir
  root : fs.root.AddsFile l fs'.root

section
variable {fs fs' : FileSystem} {l : Location} {p : Path}

theorem AddsFile.currentDir_eq (h : AddsFile l fs fs') : fs'.currentDir = fs.currentDir := by
  rw [currentDir, currentDir, currentDir?, currentDir?, h.workingDir]

/-- A path stands for what it stood for, unless it stands for the file. -/
theorem AddsFile.resolve? (h : AddsFile l fs fs') (p : Path) :
    fs'.resolve? p = fs.resolve? p ∨
      fs.resolve? p = none ∧ fs'.resolve? p = some ⟨l, 0⟩ := by
  rw [FileSystem.resolve?, FileSystem.resolve?, h.workingDir]
  split
  · exact .inl rfl
  · exact h.root.resolveFrom? _ _ _

theorem isFile_iff :
    fs.isFile p = true ↔
      ∃ place, fs.resolve? p = some place ∧ place.form? fs.root = some .file := by
  rw [isFile, node?, Option.any_eq_true]
  constructor
  · rintro ⟨n, hn, hfile⟩
    obtain ⟨place, hplace, hn⟩ := Option.bind_eq_some_iff.mp hn
    exact ⟨place, hplace, by rw [Place.form?, hn, Option.map_some, Node.form_eq_file_iff.mpr hfile]⟩
  · rintro ⟨place, hplace, hform⟩
    obtain ⟨n, hn, hfile⟩ := Option.map_eq_some_iff.mp hform
    exact ⟨n, by rw [hplace, Option.bind_some, hn], Node.form_eq_file_iff.mp hfile⟩

/-- A path stands for a file if it did so, or if it stands for the one that was made. -/
theorem AddsFile.isFile_iff (h : AddsFile l fs fs') (p : Path) :
    fs'.isFile p = true ↔ fs.isFile p = true ∨ fs'.resolve? p = some ⟨l, 0⟩ := by
  rw [FileSystem.isFile_iff, FileSystem.isFile_iff]
  constructor
  · rintro ⟨place, hplace, hform⟩
    by_cases hl : place = ⟨l, 0⟩
    · exact .inr (hl ▸ hplace)
    · rw [h.root.form?_eq hl] at hform
      rcases h.resolve? p with heq | ⟨-, hafter⟩
      · exact .inl ⟨place, heq ▸ hplace, hform⟩
      · rw [hplace] at hafter
        exact absurd (Option.some.inj hafter) hl
  · rintro (⟨place, hplace, hform⟩ | hafter)
    · have hl : place ≠ ⟨l, 0⟩ := by
        rintro rfl
        rw [Place.form?_eq, if_pos rfl, h.root.before] at hform
        cases hform
      rcases h.resolve? p with heq | ⟨hbefore, -⟩
      · exact ⟨place, heq ▸ hplace, (h.root.form?_eq hl).trans hform⟩
      · rw [hplace] at hbefore
        cases hbefore
    · exact ⟨⟨l, 0⟩, hafter, by rw [Place.form?_eq, if_pos rfl, h.root.after]⟩

end

/-! ## What a path names -/

/-- The location of the entry that a path names.  Its directory is there, and a link at the end is
not followed. -/
def entryLocation? (fs : FileSystem) (p : Path) : Option Location :=
  (fs.entry? (startOf fs.workingDir p) p.steps).map fun (l, name) => l ++ [name]

section
variable {fs : FileSystem} {start : Place} {steps : List String} {l : Location} {name : String}

/-- What the steps before the last lead to. -/
theorem exists_of_entry?_eq_some (h : fs.entry? start steps = some (l, name)) :
    ∃ front entries, steps = front ++ [name] ∧
      resolveFrom? fs.root maxLinks start front = some ⟨l, 0⟩ ∧ name ≠ ".." ∧
        fs.root.at? l = some (.dir entries) := by
  unfold entry? at h
  split at h
  · next l' name' hfront hlast =>
    split at h
    · next hcond =>
      cases h
      rw [Bool.and_eq_true, bne_iff_ne, Option.any_eq_true] at hcond
      obtain ⟨hup, n, hn, hdir⟩ := hcond
      obtain ⟨front, rfl⟩ := List.getLast?_eq_some_iff.mp hlast
      rw [List.dropLast_concat] at hfront
      cases n with
      | dir entries => exact ⟨front, entries, rfl, hfront, hup, hn⟩
      | file content => cases hdir
      | link target => cases hdir
    · cases h
  · cases h

/-- The entry is there when the steps lead somewhere. -/
theorem entryAt?_isSome (hsteps : ∀ s ∈ steps, isStep s = true)
    (h : fs.entry? start steps = some (l, name))
    (hplace : (resolveFrom? fs.root maxLinks start steps).isSome = true) :
    (fs.entryAt? l name).isSome = true := by
  obtain ⟨front, entries, rfl, hfront, hup, hl⟩ := exists_of_entry?_eq_some h
  have hname : isStep name = true := hsteps name (List.mem_append_right _ List.mem_cons_self)
  rcases resolveFrom?_append fs.root maxLinks start front with ⟨links, place, hto, hrest⟩ | hnone
  · obtain rfl : place = ⟨l, 0⟩ := Option.some.inj (hto.symm.trans hfront)
    rw [hrest, resolveFrom?_cons, turn?, Place.form?_eq, if_pos rfl, Node.formAt?, hl,
      if_neg (not_or.mpr (isStep_iff.mp hname)), if_neg hup] at hplace
    cases hentry : fs.entryAt? l name with
    | some n => rfl
    | none =>
      rw [entryAt?] at hentry
      have hform : (⟨l, 0⟩ : Place).entryForm? fs.root name = none := by
        rw [Place.entryForm?, Place.node?, if_pos rfl, hentry, Option.map_none]
      rw [hform] at hplace
      cases hplace
  · rw [hnone] at hplace
    cases hplace

/-- No directory is missing when the steps lead somewhere. -/
theorem addDirs_eq_self (hsteps : ∀ s ∈ steps, isStep s = true)
    (h : (resolveFrom? fs.root maxLinks start steps).isSome = true) :
    fs.addDirs start steps = fs := by
  have hmissing : ∀ k, fs.addMissing start (steps.take (k + 1)) (.dir []) = fs := by
    intro k
    have hfront : (resolveFrom? fs.root maxLinks start (steps.take (k + 1))).isSome = true := by
      rw [← List.take_append_drop (k + 1) steps] at h
      rcases resolveFrom?_append fs.root maxLinks start (steps.take (k + 1)) with
        ⟨links, place, hto, -⟩ | hnone
      · rw [hto]
        rfl
      · rw [hnone] at h
        cases h
    rw [addMissing]
    split
    · next l name hentry =>
      rw [if_pos (entryAt?_isSome (fun s hs => hsteps s (List.mem_of_mem_take hs)) hentry hfront)]
    · rfl
  rw [addDirs]
  generalize List.range steps.length = ks
  induction ks with
  | nil => rfl
  | cons k ks ih => rw [List.foldl_cons, hmissing k, ih]

end

section
variable {fs : FileSystem} {p : Path} {l : Location}

theorem exists_of_entryLocation?_eq_some (h : fs.entryLocation? p = some l) :
    ∃ dir name, l = dir ++ [name] ∧
      fs.entry? (startOf fs.workingDir p) p.steps = some (dir, name) := by
  obtain ⟨⟨dir, name⟩, hentry, rfl⟩ := Option.map_eq_some_iff.mp h
  exact ⟨dir, name, rfl, hentry⟩

/-- A file that is written where nothing is, in a directory that is there. -/
theorem addsFile_write (hl : fs.entryLocation? p = some l) (hnone : fs.root.at? l = none)
    (content : ByteArray) : fs.AddsFile l (fs.write p content) := by
  obtain ⟨dir, name, rfl, hentry⟩ := exists_of_entryLocation?_eq_some hl
  obtain ⟨front, entries, hsteps, hfront, -, hdir⟩ := exists_of_entry?_eq_some hentry
  have habove : fs.addDirsAbove p = fs := by
    rw [addDirsAbove, hsteps, List.dropLast_concat]
    refine addDirs_eq_self (fun s hs => ?_) (by rw [hfront]; rfl)
    have hmem : s ∈ p.steps := by
      rw [hsteps]
      exact List.mem_append_left _ hs
    exact (List.mem_filter.mp hmem).2
  have hmissing : fs.entryAt? dir name = none := by
    rw [Node.at?_append, hdir, Option.bind_some, Node.at?_singleton] at hnone
    rw [entryAt?, hdir, Option.bind_some, hnone]
  have hwrite : fs.write p content = fs.setEntry dir name (.file content) := by
    rw [write, habove, writeFrom, hentry]
    dsimp only
    rw [hmissing]
  rw [hwrite]
  exact ⟨rfl, Node.addsFile_put hdir (by rw [Node.formAt?, hnone, Option.map_none]) content⟩

/-! ## Sound file systems -/

/-- The names in the tree are those of entries, and what is not gone of the working directory is
in the tree. -/
structure IsSound (fs : FileSystem) : Prop where
  named : fs.root.isWellNamed = true
  workingDir : fs.root.formAt? fs.workingDir.kept = some .dir

/-- A file that is removed. -/
theorem addsFile_remove (hfs : fs.IsSound) (hl : fs.entryLocation? p = some l)
    (hfile : (fs.root.at? l).any Node.isFile = true) : (fs.remove p).AddsFile l fs := by
  obtain ⟨dir, name, rfl, hentry⟩ := exists_of_entryLocation?_eq_some hl
  obtain ⟨front, entries, -, -, -, hdir⟩ := exists_of_entry?_eq_some hentry
  obtain ⟨n, hn, hfile⟩ := (Option.any_eq_true _ _).mp hfile
  have hform : fs.root.formAt? (dir ++ [name]) = some .file := by
    rw [Node.formAt?, hn, Option.map_some, Node.form_eq_file_iff.mpr hfile]
  have hkept : ¬(dir ++ [name]) <+: fs.workingDir.kept := by
    rintro ⟨rest, hrest⟩
    have hworking := hfs.workingDir
    rw [← hrest] at hworking
    by_cases hnil : rest = []
    · rw [hnil, List.append_nil, hform] at hworking
      cases hworking
    · have hnone := Node.formAt?_append_eq_none (n := fs.root) (l := dir ++ [name])
        (fun hdir => by rw [hform] at hdir; cases hdir) hnil
      rw [hnone] at hworking
      cases hworking
  have hworking : afterRemoval (dir ++ [name]) fs.workingDir = fs.workingDir := by
    rw [afterRemoval]
    exact if_neg (mt List.isPrefixOf_iff_prefix.mp hkept)
  rw [remove, hentry]
  exact ⟨hworking.symm, Node.addsFile_filter hdir hform⟩

theorem IsSound.isEntryName (hfs : fs.IsSound) (hgone : fs.workingDir.gone = 0) :
    ∀ name ∈ fs.workingDir.location, IsEntryName name := by
  have hkept : fs.workingDir.kept = fs.workingDir.location := by
    rw [Place.kept, hgone, Nat.sub_zero, List.take_length]
  obtain ⟨n, hn, -⟩ := Option.map_eq_some_iff.mp (hkept ▸ hfs.workingDir)
  exact Node.isEntryName_of_at? hfs.named hn

end

end FileSystem

end HeaderLint
