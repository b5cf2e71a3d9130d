import HeaderLint.Path

/-!
# File trees

A file tree is a value: files with their bytes, directories with their entries, and
symbolic links with the path they stand for.  A file system is a tree with a working
directory in it.  Everything that reads files takes the file system as an argument,
so its result is a function of the tree.

A location is the list of names from the root of the tree to a node, with no link
on the way.  A working directory may be removed while it is in use.  It is then gone:
it has no entries and no path any more, and only what is above it can be reached from
it.  So a *place* is a location together with the number of directories at its end
that are gone.

`FileSystem.resolve?` finds the place that a path stands for.  It goes from directory
to directory and follows every link it meets.  These paths stand for nothing.

* The empty path, and a path of more than 4095 bytes.
* A path with more than forty links on the way.
* A path that goes on after a file.  A slash at the end counts as going on.
-/

namespace HeaderLint

/-! ## Nodes -/

/-- A node of a file tree. -/
inductive Node where
  /-- A regular file and its bytes. -/
  | file (content : ByteArray)
  /-- A directory and its entries. -/
  | dir (entries : List (String × Node))
  /-- A symbolic link and the path it stands for. -/
  | link (target : Path)

/-- The names from the root of a tree to a node. -/
abbrev Location := List String

namespace Node

/-- The node is a regular file. -/
def isFile : Node → Bool
  | .file _ => true
  | _ => false

/-- The node is a directory. -/
def isDir : Node → Bool
  | .dir _ => true
  | _ => false

/-- The entries of a directory. -/
def entries : Node → List (String × Node)
  | .dir entries => entries
  | _ => []

/-- The entry of a directory with a given name. -/
def child? (n : Node) (name : String) : Option Node := n.entries.lookup name

/-- The node at a location. -/
def at? (n : Node) : Location → Option Node
  | [] => some n
  | name :: names => (n.child? name).bind fun m => m.at? names

mutual

/-- The number of nodes of a tree. -/
def size : Node → Nat
  | .dir entries => entriesSize entries + 1
  | _ => 1

/-- The number of nodes in the entries of a directory. -/
def entriesSize : List (String × Node) → Nat
  | [] => 0
  | (_, n) :: entries => n.size + entriesSize entries

end

end Node

/-! ## Places -/

/-- A place that paths are seen from. -/
structure Place where
  /-- The names from the root to the place. -/
  location : Location
  /-- The number of directories at the end of the location that are gone. -/
  gone : Nat := 0
deriving DecidableEq, Repr

namespace Place

/-- The root directory. -/
def root : Place := ⟨[], 0⟩

/-- The directory above. -/
def parent (p : Place) : Place := ⟨p.location.dropLast, p.gone - 1⟩

/-- The entry of a directory. -/
def child (p : Place) (name : String) : Place := ⟨p.location ++ [name], p.gone⟩

/-- The node at a place of a tree.  A directory that is gone is empty. -/
def node? (p : Place) (tree : Node) : Option Node :=
  if p.gone = 0 then tree.at? p.location else some (.dir [])

end Place

/-! ## File systems -/

/-- A file tree with a working directory. -/
structure FileSystem where
  /-- The root directory. -/
  root : Node
  /-- The place of the working directory. -/
  workingDir : Place

namespace FileSystem

/-- The number of links that resolving a path may follow. -/
def maxLinks : Nat := 40

/-- The number of bytes that a path may have. -/
def maxPathBytes : Nat := 4095

/-- The place where a path starts, seen from the directory `here`. -/
def startOf (here : Place) (p : Path) : Place := if p.isAbsolute then .root else here

/-- The place that the segments of a path stand for, seen from the directory `here`. -/
def resolveFrom? (root : Node) (links : Nat) (here : Place) : List String → Option Place
  | [] => some here
  | segment :: rest =>
    match here.node? root with
    | some (.dir entries) =>
      if segment = "" ∨ segment = "." then resolveFrom? root links here rest
      else if segment = ".." then resolveFrom? root links here.parent rest
      else
        match entries.lookup segment with
        | none => none
        | some (.link target) =>
          match links with
          | 0 => none
          | links + 1 =>
            if target.text.isEmpty then none
            else resolveFrom? root links (startOf here target) (target.segments ++ rest)
        | some _ => resolveFrom? root links (here.child segment) rest
    | _ => none
termination_by segments => (links, segments.length)

/-- The place that a path stands for. -/
def resolve? (fs : FileSystem) (p : Path) : Option Place :=
  if p.text.isEmpty ∨ maxPathBytes < p.text.utf8ByteSize then none
  else resolveFrom? fs.root maxLinks (startOf fs.workingDir p) p.segments

/-- The node that a path stands for. -/
def node? (fs : FileSystem) (p : Path) : Option Node :=
  (fs.resolve? p).bind fun place => place.node? fs.root

/-- The path stands for something. -/
def has (fs : FileSystem) (p : Path) : Bool := (fs.resolve? p).isSome

/-- The path stands for a regular file. -/
def isFile (fs : FileSystem) (p : Path) : Bool := (fs.node? p).any Node.isFile

/-- The path stands for a directory. -/
def isDir (fs : FileSystem) (p : Path) : Bool := (fs.node? p).any Node.isDir

/-- The bytes of the file at a node. -/
def contentOf : Node → Option (List UInt8)
  | .file content => some content.data.toList
  | _ => none

/-- The bytes of the file that a path stands for. -/
def read? (fs : FileSystem) (p : Path) : Option (List UInt8) := (fs.node? p).bind contentOf

/-- The absolute path of a location. -/
def pathOf (l : Location) : Path := ⟨"/" ++ "/".intercalate l⟩

/-- The absolute path of the working directory, unless it is gone. -/
def currentDir? (fs : FileSystem) : Option Path :=
  if fs.workingDir.gone = 0 then some (pathOf fs.workingDir.location) else none

/-- The path of the working directory.  It is `.` when the directory is gone. -/
def currentDir (fs : FileSystem) : Path := fs.currentDir?.getD ⟨"."⟩

/-- The location of the directory that a path stands for.  A relative path has none
when the working directory is gone. -/
def absolute? (fs : FileSystem) (p : Path) : Option Location :=
  if p.isAbsolute || fs.workingDir.gone == 0 then (fs.resolve? p).map Place.location else none

end FileSystem

end HeaderLint
