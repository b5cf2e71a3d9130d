import HeaderLint.IgnoreFile.Repository

/-!
# Levels of ignore files

Each directory on the way from an entry to the root of the tree is a level with up
to three ignore files: `.ignore`, `.gitignore` and the exclude file of a repository
that starts there.  The first file that decides about an entry wins, in this order.

* The `.ignore` files, from the directory of the entry up.
* The `.gitignore` files, from there up to the directory where the repository
  starts.
* The exclude file of the repository.
* A file given for the walk as a whole.

The last two kinds of the levels count only inside a repository.

Levels below the root of the walk look at the path of the entry as it is shown, and
levels above look at its absolute path.
-/

namespace HeaderLint

/-- The ignore files of a directory. -/
structure IgnoreLevel where
  /-- The file `.ignore`. -/
  plain : IgnoreFile
  /-- The file `.gitignore`. -/
  git : IgnoreFile
  /-- The exclude file of the repository that starts here. -/
  exclude : IgnoreFile
  /-- A repository starts here. -/
  isRepository : Bool
  /-- The directory is above the root of the walk. -/
  isAbove : Bool

/-! ## Entries -/

/-- The path of an entry as it is shown, and its absolute path. -/
structure EntryPath where
  /-- The path as it is shown. -/
  shown : Path
  /-- The absolute path. -/
  absolute : Path

namespace EntryPath

open IgnoreFile

/-- What a shown path adds to the root of its walk.  It is the whole path, but for a
`./` at its start, if the root is the working directory. -/
def below (root shown : Path) : Path :=
  let path := dropHere shown.text.toList
  if isHere root.text.toList then ⟨String.ofList path⟩
  else ⟨String.ofList (dropStart ['/'] (dropStart (dropHere root.text.toList) path))⟩

/-- The paths of an entry of a walk.  `absoluteRoot` is the absolute path of the root.
It does not count if the shown path adds an absolute path. -/
def ofShown (root absoluteRoot shown : Path) : EntryPath :=
  ⟨shown, absoluteRoot.join (below root shown)⟩

end EntryPath

/-! ## Deciding -/

namespace IgnoreLevel

/-- What a file of the level decides. -/
def verdict? (l : IgnoreLevel) (f : IgnoreFile) (p : EntryPath) (isDir : Bool) : Option Verdict :=
  f.verdict? (if l.isAbove then p.absolute else p.shown) isDir

/-- The levels up to the one where the repository starts.  Outside a repository there
are none. -/
def ofRepository : List IgnoreLevel → List IgnoreLevel
  | [] => []
  | l :: ls =>
    if l.isRepository then [l]
    else if ls.any isRepository then l :: ofRepository ls
    else []

/-- What the levels, innermost first, and the file of the walk decide about an
entry. -/
def decide? (levels : List IgnoreLevel) (own : IgnoreFile) (p : EntryPath) (isDir : Bool) :
    Option Verdict :=
  let repository := ofRepository levels
  levels.findSome? (fun l => l.verdict? l.plain p isDir) <|>
    repository.findSome? (fun l => l.verdict? l.git p isDir) <|>
    repository.findSome? (fun l => l.verdict? l.exclude p isDir) <|>
    own.verdict? p.shown isDir

end IgnoreLevel

/-! ## Reading the files of a directory -/

namespace FileSystem

/-- The ignore file at a path, for the directory `dir`. -/
def ignoreFile (fs : FileSystem) (dir file : Path) : IgnoreFile :=
  match fs.read? file with
  | some content => .ofContent dir content
  | none => .empty

/-- The exclude file of the repository that starts in a directory. -/
def excludeFile (fs : FileSystem) (dir : Path) : IgnoreFile :=
  match fs.repositoryDir? dir with
  | some own => fs.ignoreFile dir (own.join ⟨"info/exclude"⟩)
  | none => .empty

/-- The ignore files of a directory. -/
def ignoreLevel (fs : FileSystem) (useGit : Bool) (dir : Path) (isAbove : Bool) :
    IgnoreLevel where
  plain := fs.ignoreFile dir (dir.join ⟨".ignore"⟩)
  git := if useGit then fs.ignoreFile dir (dir.join ⟨".gitignore"⟩) else .empty
  exclude := if useGit then fs.excludeFile dir else .empty
  isRepository := useGit && fs.isRepository dir
  isAbove := isAbove

/-- The levels of the directories above a location, innermost first. -/
def ignoreLevelsAbove (fs : FileSystem) (useGit : Bool) (l : Location) : List IgnoreLevel :=
  (List.range l.length).map fun n =>
    fs.ignoreLevel useGit (pathOf (l.take (l.length - 1 - n))) true

end FileSystem

end HeaderLint
