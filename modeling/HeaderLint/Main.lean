import HeaderLint.CommandLine
import HeaderLint.FileTree.Edit

/-!
# The program

The program takes a snapshot of the part of the machine's file tree that its
arguments can reach, runs the command line on it, writes both streams and exits with
the code of the outcome.

The snapshot holds these places, each with all that is below it.

* The working directory and whatever an argument names.
* The directory of a file that an argument names.
* What the links in these places stand for.
* The directories that the repositories in these places keep their files in.

It also holds the ignore files of the directories above.  The content of a file is
read only if an argument names it, if it is a source file, or if it can hold ignore
rules.
-/

namespace HeaderLint

/-- The content of a file with this name counts. -/
def isRelevant (name : String) : Bool :=
  (SourceKind.ofPath? ⟨name⟩).isSome || name.startsWith "." ||
    ["exclude", "commondir"].contains name

/-- The directory that a file of a repository names. -/
def repositoryPlace? (file : Path) (content : ByteArray) : Option Path :=
  match file.fileName? with
  | some ".git" => FileSystem.linkedDir? content.data.toList
  | some "commondir" => FileSystem.sharedDir? file.parent content.data.toList
  | _ => none

/-- The node of a directory entry, and the places that links and files in it name.  What
cannot be read is left out.  `named` says that an argument names the entry. -/
partial def snapshot (named : Bool) (entry : IO.FS.DirEntry) :
    StateT (List String) IO (Option Node) := do
  try
    match (← entry.path.symlinkMetadata).type with
    | .file =>
      if named || isRelevant entry.fileName then
        let content ← IO.FS.readBinFile entry.path
        let place := repositoryPlace? ⟨entry.path.toString⟩ content
        modify ((place.map Path.text).toList ++ ·)
        return some (.file content)
      else return some (.file .empty)
    | .symlink =>
      let target := (← IO.FS.realPath entry.path).toString
      modify (target :: ·)
      return some (.link ⟨target⟩)
    | .dir =>
      let mut entries := #[]
      for child in ← entry.path.readDir do
        if let some n ← snapshot false child then entries := entries.push (child.fileName, n)
      return some (.dir entries.toList)
    | .other => return none
  catch _ => return none

/-- The places above an absolute path that can hold ignore rules. -/
def ignorePlaces (p : Path) : List String :=
  let names := p.segments.filter fun s => s != ""
  (List.range names.length).flatMap fun n =>
    [".ignore", ".gitignore", ".git", ".jj"].map fun name =>
      ((FileSystem.pathOf (names.take n)).join ⟨name⟩).text

/-- Put places of the machine into the tree, and then what links in them stand for.
A place that the tree has already is passed over, unless an argument names it. -/
partial def load (fs : FileSystem) (named : Bool) : List String → IO FileSystem
  | [] => return fs
  | name :: names => do
    if !named && fs.has ⟨name⟩ then load fs named names
    else
      let (node, targets) ← (snapshot named ⟨← IO.currentDir, name⟩).run []
      match node with
      | none => load fs named names
      | some (.dir entries) =>
        let place := (← IO.FS.realPath name).toString
        let fs := fs.put ⟨place⟩ (.dir entries)
        load (← load fs false (ignorePlaces ⟨place⟩ ++ targets)) named names
      | some n =>
        let dir := Path.parent ⟨name⟩
        let fs ← if n.isFile && dir.text != "" then load fs false [dir.text] else pure fs
        load (← load (fs.put ⟨name⟩ n) false targets) named names

end HeaderLint

open HeaderLint

/-- Run the command line on a snapshot of the file tree. -/
def main (args : List String) : IO UInt32 := do
  let here : Path := ⟨(← IO.currentDir).toString⟩
  let empty : FileSystem := ⟨.dir [], ⟨here.steps, 0⟩⟩
  let named := here.text :: args.filter fun arg => !arg.startsWith "-"
  let fs ← load (empty.makeDir here) true named
  match commandLine fs args with
  | none =>
    IO.eprintln "error: invalid arguments"
    return 2
  | some outcome =>
    IO.print outcome.out
    IO.eprint outcome.err
    return outcome.code.toUInt32
