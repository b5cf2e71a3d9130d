import HeaderLint.FileTree

/-!
# Changes to a file tree

A file system is changed by writing a file, by putting or removing an entry, by
making a directory and by entering one.  What puts something at a path makes the
directories on the way that are missing, one after the other, so `a/../b` makes both
`a` and `b`.  A change that cannot be made changes nothing.

A directory that is removed while it is in use as the working directory, or on the
way to it, is gone.
-/

namespace HeaderLint

/-- The tree with the entries of the directory at a location changed. -/
def Node.changeEntries (f : List (String × Node) → List (String × Node)) : Location → Node → Node
  | [], .dir entries => .dir (f entries)
  | name :: names, .dir entries =>
    .dir (entries.map fun (key, n) => (key, if key = name then changeEntries f names n else n))
  | _, n => n

/-- The segments of a path that lead somewhere. -/
def Path.steps (p : Path) : List String := p.segments.filter fun s => s != "" && s != "."

namespace FileSystem

/-! ## Entries -/

/-- The location of the directory that steps lead into, and the name of the entry
there.  The last step is not followed. -/
def entry? (fs : FileSystem) (start : Place) (steps : List String) : Option (Location × String) :=
  match resolveFrom? fs.root maxLinks start steps.dropLast, steps.getLast? with
  | some ⟨l, 0⟩, some name =>
    if name != ".." && (fs.root.at? l).any Node.isDir then some (l, name) else none
  | _, _ => none

/-- The entry of the directory at a location. -/
def entryAt? (fs : FileSystem) (l : Location) (name : String) : Option Node :=
  (fs.root.at? l).bind fun n => n.child? name

/-- The file system with an entry of the directory at a location set. -/
def setEntry (fs : FileSystem) (l : Location) (name : String) (n : Node) : FileSystem :=
  { fs with
    root := fs.root.changeEntries (fun es => es.filter (fun e => e.1 != name) ++ [(name, n)]) l }

/-- The file system with a node where the steps lead, unless something is there. -/
def addMissing (fs : FileSystem) (start : Place) (steps : List String) (n : Node) : FileSystem :=
  match fs.entry? start steps with
  | some (l, name) => if (fs.entryAt? l name).isSome then fs else fs.setEntry l name n
  | none => fs

/-- The file system with all the directories that the steps lead through. -/
def addDirs (fs : FileSystem) (start : Place) (steps : List String) : FileSystem :=
  (List.range steps.length).foldl
    (fun fs k => fs.addMissing start (steps.take (k + 1)) (.dir [])) fs

/-- The file system with the directories above the entry that a path names. -/
def addDirsAbove (fs : FileSystem) (p : Path) : FileSystem :=
  fs.addDirs (startOf fs.workingDir p) p.steps.dropLast

/-! ## Changes -/

/-- The file system with a directory at a path.  What is there stays as it is. -/
def makeDir (fs : FileSystem) (p : Path) : FileSystem :=
  fs.addDirs (startOf fs.workingDir p) p.steps

/-- The file system with a symbolic link at a path.  What is there stays as it is. -/
def makeLink (fs : FileSystem) (p target : Path) : FileSystem :=
  (fs.addDirsAbove p).addMissing (startOf fs.workingDir p) p.steps (.link target)

/-- The file system with a node in the place of the entry that a path names. -/
def put (fs : FileSystem) (p : Path) (n : Node) : FileSystem :=
  let fs := fs.addDirsAbove p
  match fs.entry? (startOf fs.workingDir p) p.steps with
  | some (l, name) => fs.setEntry l name n
  | none => fs

/-- The file system with bytes written to the file where steps lead.  Links at the
end are followed, and a file that is missing is made.  A directory stays as it is. -/
def writeFrom (fs : FileSystem) (content : ByteArray) :
    Nat → Place → List String → FileSystem
  | links, start, steps =>
    match fs.entry? start steps with
    | none => fs
    | some (l, name) =>
      match fs.entryAt? l name, links with
      | some (.dir _), _ => fs
      | some (.link _), 0 => fs
      | some (.link target), links + 1 =>
        writeFrom fs content links (startOf ⟨l, 0⟩ target) target.steps
      | _, _ => fs.setEntry l name (.file content)

/-- The file system with bytes written to the file that a path stands for. -/
def write (fs : FileSystem) (p : Path) (content : ByteArray) : FileSystem :=
  (fs.addDirsAbove p).writeFrom content maxLinks (startOf fs.workingDir p) p.steps

/-- The place after the entry at a location is removed: what was below is gone. -/
def afterRemoval (removed : Location) (place : Place) : Place :=
  let kept := place.location.length - place.gone
  if removed.isPrefixOf (place.location.take kept) then
    { place with gone := place.location.length + 1 - removed.length }
  else place

/-- The file system without the entry that a path names. -/
def remove (fs : FileSystem) (p : Path) : FileSystem :=
  match fs.entry? (startOf fs.workingDir p) p.steps with
  | some (l, name) =>
    { root := fs.root.changeEntries (fun es => es.filter fun e => e.1 != name) l
      workingDir := afterRemoval (l ++ [name]) fs.workingDir }
  | none => fs

/-- The file system with the working directory changed to the directory of a path. -/
def enter (fs : FileSystem) (p : Path) : FileSystem :=
  match fs.resolve? p with
  | some place => if fs.isDir p then { fs with workingDir := place } else fs
  | none => fs

end FileSystem

end HeaderLint
