import HeaderLint.Failure
import HeaderLint.IgnoreFile.Level
import HeaderLint.Pattern.Exclude
import HeaderLint.SourceKind

/-!
# Walks

A walk collects the source files below a root.  A root that is a file is the only
one, if it is a source file.  The root `-` is the standard input, below which there
is none.  Below a directory the walk passes over

* what an ignore file ignores, and everything below that,
* what has a full stop at the start of its name, unless hidden entries are wanted
  or an ignore file keeps the entry,
* what is deeper than the greatest depth,
* symbolic links, unless they are to be followed.  A link that stands for a
  directory the walk is in, or for nothing, is passed over even then,
* files whose path from the root an exclude pattern matches.

The files come in the order of their paths.  The path of a file is the root as it
was given with the names below it.
-/

namespace HeaderLint

/-- What a walk takes in. -/
structure WalkOptions where
  /-- The greatest depth, where the root has depth zero. -/
  maxDepth : Option Nat := none
  /-- Symbolic links are followed. -/
  followLinks : Bool := false
  /-- Hidden entries are wanted. -/
  includeHidden : Bool := false
  /-- The ignore files of repositories count. -/
  useGit : Bool := true
  /-- Patterns of files to leave out. -/
  exclude : List ExcludePattern := []

namespace WalkOptions

/-- The exclude patterns of some texts.  Invalid ones are dropped. -/
def patterns (texts : List String) : List ExcludePattern := texts.filterMap ExcludePattern.parse?

/-- Some pattern leaves out a file with this path from the root. -/
def excludes (o : WalkOptions) (relative : String) : Bool :=
  o.exclude.any fun p => p.matchesText relative

end WalkOptions

/-- A source file that a walk found. -/
structure SourceEntry where
  /-- The path of the file. -/
  path : Path
  /-- The kind of the file. -/
  kind : SourceKind
deriving DecidableEq, Repr

/-- The source file that a path names, if its extension is one. -/
def SourceEntry.ofPath? (p : Path) : Option SourceEntry :=
  (SourceKind.ofPath? p).map fun kind => ⟨p, kind⟩

/-! ## Below a directory -/

/-- A directory that a walk is in. -/
structure WalkDir where
  /-- The path of the directory. -/
  path : Path
  /-- The names from the root of the walk to the directory. -/
  names : List String
  /-- The place of the directory. -/
  place : Place
  /-- The places of the directories above it that the walk is in. -/
  above : List Place
  /-- The ignore files from the directory up. -/
  levels : List IgnoreLevel

/-- What all directories of a walk share. -/
structure WalkContext where
  /-- The file system. -/
  fs : FileSystem
  /-- What the walk takes in. -/
  options : WalkOptions
  /-- The path of the root. -/
  root : Path
  /-- The absolute path of the root. -/
  absoluteRoot : Path
  /-- The ignore file of the walk. -/
  own : IgnoreFile

namespace WalkContext

/-- The entries of a directory. -/
def entries (w : WalkContext) (d : WalkDir) : List (String × Node) :=
  ((d.place.node? w.fs.root).map Node.entries).getD []

/-- The entry is passed over, whatever it is. -/
def passesOver (w : WalkContext) (path : Path) (d : WalkDir) (name : String)
    (isDir : Bool) : Bool :=
  match IgnoreLevel.decide? d.levels w.own (.ofShown w.root w.absoluteRoot path) isDir with
  | some verdict => verdict == .ignored
  | none => !w.options.includeHidden && name.toList.head? == some '.'

/-- The place of a link in a directory stands for a directory that the walk is in. -/
def isLoop (w : WalkContext) (d : WalkDir) (place : Place) : Bool :=
  (place.node? w.fs.root).any Node.isDir && (d.place :: d.above).contains place

/-- The node of an entry.  A link that is followed gives that of its target, unless
the walk is in the target. -/
def target? (w : WalkContext) (d : WalkDir) (path : Path) : Node → Option Node
  | .link _ =>
    if w.options.followLinks then
      (w.fs.resolve? path).bind fun place =>
        if w.isLoop d place then none else place.node? w.fs.root
    else none
  | n => some n

/-- A directory below a directory of the walk, if its path stands for one. -/
def enter? (w : WalkContext) (d : WalkDir) (path : Path) (name : String) : Option WalkDir :=
  (w.fs.resolve? path).map fun place =>
    { path := path
      names := d.names ++ [name]
      place := place
      above := d.place :: d.above
      levels := w.fs.ignoreLevel w.options.useGit path false :: d.levels }

/-- The files below a directory with the names from the root to them.  `fuel` bounds
the depth. -/
def filesBelow (w : WalkContext) : Nat → WalkDir → List (Path × List String)
  | 0, _ => []
  | fuel + 1, d =>
    if w.options.maxDepth.any fun depth => decide (depth ≤ d.names.length) then []
    else
      (w.entries d).flatMap fun (name, n) =>
        let path := d.path.join ⟨name⟩
        match w.target? d path n with
        | none => []
        | some m =>
          if w.passesOver path d name m.isDir then []
          else if m.isDir then ((w.enter? d path name).map (w.filesBelow fuel)).getD []
          else if m.isFile then [(path, d.names ++ [name])]
          else []

end WalkContext

/-! ## The walk -/

namespace FileSystem

/-- The ignore file of a walk: the file `.doclintignore` of its root.  Its rules
speak about the working directory, so there are none when that is gone. -/
def walkIgnoreFile (fs : FileSystem) (root : Path) : IgnoreFile :=
  match fs.currentDir? with
  | some dir => fs.ignoreFile dir (root.join ⟨".doclintignore"⟩)
  | none => .empty

/-- The ignore files above a root.  A root without an absolute path has none. -/
def levelsAbove (fs : FileSystem) (useGit : Bool) (root : Path) : List IgnoreLevel :=
  ((fs.absolute? root).map (fs.ignoreLevelsAbove useGit)).getD []

/-- A depth that no walk of the tree exceeds.  A walk meets each directory at most
once by following a link, and between two links it goes down the tree. -/
def walkFuel (fs : FileSystem) : Nat := (fs.root.size + 1) * (fs.root.size + 1)

/-- The files below a directory, with the names from the directory to them. -/
def filesBelow (fs : FileSystem) (root : Path) (place : Place) (o : WalkOptions) :
    List (Path × List String) :=
  let w : WalkContext := ⟨fs, o, root, pathOf place.location, fs.walkIgnoreFile root⟩
  w.filesBelow fs.walkFuel
    { path := root
      names := []
      place := place
      above := []
      levels := fs.ignoreLevel o.useGit root false :: fs.levelsAbove o.useGit root }

/-- The source files below a root, in the order of their paths. -/
def sourceFiles (fs : FileSystem) (root : Path) (o : WalkOptions) :
    Except WalkFailure (List SourceEntry) :=
  match fs.resolve? root with
  | none => .error (.notFound root)
  | some place =>
    if fs.isFile root then .ok (SourceEntry.ofPath? root).toList
    else if root.sameAs ⟨"-"⟩ then .ok []
    else
      let wanted := (fs.filesBelow root place o).filter fun (_, names) =>
        !o.excludes ("/".intercalate names)
      let entries := wanted.filterMap fun (path, _) => SourceEntry.ofPath? path
      .ok (entries.mergeSort fun a b => a.path.le b.path)

end FileSystem

end HeaderLint
