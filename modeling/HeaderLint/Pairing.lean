import HeaderLint.FileTree
import HeaderLint.SourceKind

/-!
# Pairing

The header of an implementation, and the implementation of a header, is found by
convention.  The search goes through three bases: the working directory, the project
root, and the directory of the file.  In each base it tries the conventional
directory, `include` for headers and `src` for implementations, then the configured
directories below that, then the base itself.  In each directory it tries the
extensions of the kind in order.  The first candidate that is a file, and is not
spelled like the given path, is the partner.
-/

namespace HeaderLint

namespace SourceKind

/-- The directory where files of the kind are by convention. -/
def conventionalDir : SourceKind → Path
  | .header => ⟨"include"⟩
  | .implementation => ⟨"src"⟩

/-- The kind of the partner of a file. -/
def partner : SourceKind → SourceKind
  | .header => .implementation
  | .implementation => .header

end SourceKind

namespace Pairing

/-- The bases of the search, in order.  A project root that is the working directory
is not tried again. -/
def bases (workingDir root file : Path) : List Path :=
  [workingDir] ++ (if root.sameAs workingDir then [] else [root]) ++ [file.parent]

/-- The directories of a base, in order. -/
def directories (kind : SourceKind) (subdirs : List String) (base : Path) : List Path :=
  let conventional := base.join kind.conventionalDir
  [conventional] ++ subdirs.map (fun sub => conventional.join ⟨sub⟩) ++ [base]

/-- The candidates of a directory, in order. -/
def inDirectory (kind : SourceKind) (stem : String) (dir : Path) : List Path :=
  kind.extensions.map fun extension => dir.join ⟨stem ++ "." ++ extension⟩

/-- The candidates for the partner, of the given kind, of a file with the given
stem. -/
def candidates (kind : SourceKind) (subdirs : List String) (stem : String) (bases : List Path) :
    List Path :=
  bases.flatMap fun base => (directories kind subdirs base).flatMap (inDirectory kind stem)

end Pairing

namespace FileSystem

/-- The file of the given kind that is the partner of a path. -/
def findPartner? (fs : FileSystem) (kind : SourceKind) (file root : Path) (subdirs : List String) :
    Option Path :=
  file.stem?.bind fun stem =>
    (Pairing.candidates kind subdirs stem (Pairing.bases fs.currentDir root file)).find? fun c =>
      fs.isFile c && !c.sameAs file

end FileSystem

end HeaderLint
