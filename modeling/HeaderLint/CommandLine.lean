import HeaderLint.CommandLine.Arguments
import HeaderLint.Report.Output

/-!
# The command line

A command turns a file system into an outcome: an exit code and what is written to
the two streams.  A check that finds violations has exit code one.  A run that gives
up writes nothing to the first stream, its message to the second, and has the exit
code of the failure.
-/

namespace HeaderLint

/-- What a run of the program leaves behind. -/
structure Outcome where
  /-- The exit code. -/
  code : Nat
  /-- What is written to standard output. -/
  out : String
  /-- What is written to standard error. -/
  err : String
deriving DecidableEq, Repr

namespace Outcome

/-- The outcome of a run that gives up. -/
def ofFailure (json : Bool) (e : Failure) : Outcome where
  code := e.exitCode
  out := ""
  err :=
    if json then (Json.obj [("error", .str e.message)]).compact ++ "\n"
    else "error: " ++ e.message ++ "\n"

/-- The outcome of a run that writes something and succeeds. -/
def ofOutput (out : String) : Outcome := ⟨0, out, ""⟩

end Outcome

/-! ## Check -/

/-- The line that names a checked file. -/
def FileReport.progress (f : FileReport) : String :=
  "checked " ++ f.path.text ++ ": " ++ f.functionCount.repr ++ " functions, " ++
    f.violations.length.repr ++ " violations"

namespace CheckRequest

/-- What the walk of a check takes in. -/
def walkOptions (r : CheckRequest) : WalkOptions where
  maxDepth := r.maxDepth
  includeHidden := r.includeHidden
  exclude := WalkOptions.patterns r.exclude

/-- The outcome of a check. -/
def run (r : CheckRequest) (fs : FileSystem) : Outcome :=
  match fs.report r.config r.root r.walkOptions with
  | .error e => .ofFailure r.json e
  | .ok report =>
    { code := if report.hasViolations then 1 else 0
      out := report.render (.ofFlag r.json)
      err := if r.verbose then unlines (report.files.map FileReport.progress) else "" }

end CheckRequest

/-! ## Single files -/

namespace FileSystem

/-- The inventory of a file that has to be there. -/
def inventoryOf (fs : FileSystem) (file : Path) : Except Failure Inventory :=
  if fs.has file then (fs.inventory file).mapError .read else .error (.pathNotFound file)

/-- The outcome of listing something of a file. -/
def list (fs : FileSystem) (file : Path) (json : Bool) (render : Inventory → OutputForm → String) :
    Outcome :=
  match fs.inventoryOf file with
  | .error e => .ofFailure json e
  | .ok i => .ofOutput (render i (.ofFlag json))

/-- The partner of a file of either kind. -/
def partnerOf? (fs : FileSystem) (file : Path) (subdirs : List String) : Option Path :=
  (SourceKind.ofPath? file).bind fun kind =>
    fs.findPartner? kind.partner file fs.currentDir subdirs

/-- The outcome of naming the partner of a file. -/
def pair (fs : FileSystem) (file : Path) (json : Bool) (subdirs : List String) : Outcome :=
  if fs.has file then
    let partner := fs.partnerOf? file subdirs
    if json then
      .ofOutput ((Json.obj [("file", .str file.text),
        ("kind", Json.ofOption (fun k => .str k.name) (SourceKind.ofPath? file)),
        ("pair", Json.ofOption (fun p => .str p.text) partner)]).pretty ++ "\n")
    else
      match partner with
      | some p => .ofOutput (file.text ++ " -> " ++ p.text ++ "\n")
      | none => .ofOutput (file.text ++ ": no pair found\n")
  else .ofFailure json (.pathNotFound file)

end FileSystem

/-! ## Commands -/

/-- The name and the version of the program. -/
def versionLine : String := "doclint 0.1.0\n"

/-- The outcome of a command. -/
def Command.run (fs : FileSystem) : Command → Outcome
  | .check request => request.run fs
  | .functions file json => fs.list file json fun i => FunctionRecord.renderAll i.functions i.path
  | .scan file json => fs.list file json fun i => Token.renderAll i.tokens i.path
  | .pair file json subdirs => fs.pair file json subdirs
  | .version => .ofOutput versionLine

/-- The outcome of a command line, unless it is rejected. -/
def commandLine (fs : FileSystem) (args : List String) : Option Outcome :=
  (Command.parse? args).map (Command.run fs)

end HeaderLint
