import HeaderLint.FileTree
import HeaderLint.IgnoreFile

/-!
# Repositories

A repository starts in a directory that has an entry `.git` or `.jj`.  A link counts
if it stands for something.

Rules for the whole repository are in the file `info/exclude` of its own directory,
which is `.git` unless that is a file.  The first line of a file `.git` has the form
`gitdir: d`.  Then `d` belongs to one of several working trees, and the first line of
the file `commondir` in it names the directory that they share.  A name with a full
stop at the start is seen from `d`.  Where one of the two lines is missing or is not
UTF-8, the repository has no such rules.
-/

namespace HeaderLint.FileSystem

/-- A repository starts in the directory. -/
def isRepository (fs : FileSystem) (dir : Path) : Bool :=
  fs.has (dir.join ⟨".git"⟩) || fs.has (dir.join ⟨".jj"⟩)

/-- The first line of a file. -/
def firstLine? (content : List UInt8) : Option (List Char) :=
  if content.isEmpty then none else (IgnoreFile.wellFormedLines content).head?

/-- The directory that the content of a file `.git` names. -/
def linkedDir? (content : List UInt8) : Option Path :=
  (firstLine? content).bind fun line =>
    ("gitdir: ".toList.isPrefixOf? line).map fun rest => ⟨String.ofList rest⟩

/-- The directory that the content of a file `commondir` in `dir` names. -/
def sharedDir? (dir : Path) (content : List UInt8) : Option Path :=
  (firstLine? content).map fun line =>
    if line.head? = some '.' then dir.join ⟨String.ofList line⟩ else ⟨String.ofList line⟩

/-- The own directory of the repository that starts in a directory. -/
def repositoryDir? (fs : FileSystem) (dir : Path) : Option Path :=
  match fs.read? (dir.join ⟨".git"⟩) with
  | none => some (dir.join ⟨".git"⟩)
  | some content =>
    (linkedDir? content).bind fun linked =>
      (fs.read? (linked.join ⟨"commondir"⟩)).bind (sharedDir? linked)

end HeaderLint.FileSystem
