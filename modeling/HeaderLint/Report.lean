import HeaderLint.DocCheck
import HeaderLint.Pairing
import HeaderLint.Text.Utf8
import HeaderLint.Walk

/-!
# Reports

A file is checked for itself, and an implementation is then compared with its
header, if it has one that can be read.  A file that cannot be read has an empty
report.

A run walks the tree below its root and checks every source file.  Without a project
root of its own the root of the run serves as one, if it is a directory.  The
reports come in the order of the paths.
-/

namespace HeaderLint

open Text

/-! ## Reading a file -/

namespace FileSystem

/-- The inventory of a file.  Bytes that are not UTF-8 are replaced. -/
def inventory (fs : FileSystem) (p : Path) : Except ReadFailure Inventory :=
  match fs.read? p with
  | some content => .ok (.ofSource p (String.ofList (decodeUtf8 content)))
  | none => .error ⟨p⟩

end FileSystem

/-! ## Reports -/

/-- What was found in a file. -/
structure FileReport where
  /-- The path of the file. -/
  path : Path
  /-- The kind of the file, if its extension tells one. -/
  kind : Option SourceKind
  /-- The number of records of functions. -/
  functionCount : Nat
  /-- The violations, those of the documentation first. -/
  violations : List Violation
deriving DecidableEq, Repr

/-- What a run found. -/
structure Report where
  /-- The root of the run. -/
  root : Path
  /-- The reports of the files. -/
  files : List FileReport
deriving DecidableEq, Repr

namespace Report

/-- The violations of all files, in the order of the files. -/
def violations (r : Report) : List Violation := r.files.flatMap FileReport.violations

/-- The number of functions of all files. -/
def functionCount (r : Report) : Nat :=
  r.files.foldr (fun f n => f.functionCount + n) 0

/-- Some file has a violation. -/
def hasViolations (r : Report) : Bool := r.files.any fun f => !f.violations.isEmpty

/-- The number of violations of a severity. -/
def countAt (r : Report) (s : Severity) : Nat :=
  (r.violations.filter fun v => v.severity == s).length

end Report

/-! ## Checking files -/

namespace FileSystem

/-- The directory where pairing looks after the working directory. -/
def searchRoot (fs : FileSystem) (config : Config) : Path :=
  config.projectRoot.getD fs.currentDir

/-- The header of an implementation. -/
def findHeader? (fs : FileSystem) (config : Config) (p : Path) : Option Path :=
  fs.findPartner? .header p (fs.searchRoot config) config.includeSubdirs

/-- The differences between two given files. -/
def comparePair (fs : FileSystem) (config : Config) (implementation header : Path) :
    Except CompareFailure (List Finding) := do
  let i ← (fs.inventory implementation).mapError .read
  let h ← (fs.inventory header).mapError .read
  return i.compare h config

/-- The differences between an implementation and its header.  Without a header, or
when a file cannot be read, there are none. -/
def analyze (fs : FileSystem) (config : Config) (implementation : Path) : List Finding :=
  match fs.findHeader? config implementation with
  | none => []
  | some header =>
    match fs.comparePair config implementation header with
    | .ok findings => findings
    | .error (.memory collected) => collected
    | .error (.read _) => []

/-- The violations of comparing an implementation with its header. -/
def headerViolations (fs : FileSystem) (config : Config) (i : Inventory) : List Violation :=
  match (fs.findHeader? config i.path).bind fun p => (fs.inventory p).toOption with
  | some h => Finding.toViolations (i.compare h config) i.path h.path
  | none => []

/-- The report of a file. -/
def fileReport (fs : FileSystem) (config : Config) (p : Path) : FileReport :=
  let kind := SourceKind.ofPath? p
  match fs.inventory p with
  | .error _ => ⟨p, kind, 0, []⟩
  | .ok i =>
    let compared := config.crossReference && kind == some .implementation
    ⟨p, kind, i.functions.length,
      i.docViolations config ++ if compared then fs.headerViolations config i else []⟩

/-- The configuration of a run with a given root. -/
def runConfig (fs : FileSystem) (config : Config) (root : Path) : Config :=
  if config.projectRoot.isNone && fs.isDir root then { config with projectRoot := some root }
  else config

/-- Check every source file below a root. -/
def report (fs : FileSystem) (config : Config) (root : Path) (o : WalkOptions) :
    Except Failure Report :=
  match fs.sourceFiles root o with
  | .error e => .error (.ofWalk e)
  | .ok entries =>
    if entries.isEmpty then .error (.noSourceFiles root)
    else .ok ⟨root, entries.map fun e => fs.fileReport (fs.runConfig config root) e.path⟩

end FileSystem

end HeaderLint
