import HeaderLint.Comparison

/-!
# Failures

What can go wrong with a run, from the inside out: a file cannot be read, a walk
cannot start, a comparison stops, a run gives up.  Each failure has one message, and
a failure of a run has an exit code.
-/

namespace HeaderLint

/-- A file that cannot be read. -/
structure ReadFailure where
  /-- The path of the file. -/
  path : Path
deriving DecidableEq, Repr

/-- The message of a file that cannot be read. -/
def ReadFailure.message (e : ReadFailure) : String := "failed to read file: " ++ e.path.text

/-- A walk that fails. -/
inductive WalkFailure where
  /-- The root is not there. -/
  | notFound (path : Path)
  /-- The root must not be read. -/
  | permissionDenied (path : Path)
  /-- The system reports another cause. -/
  | system (path : Path) (cause : String)
deriving DecidableEq, Repr

/-- The message of a walk that fails. -/
def WalkFailure.message : WalkFailure → String
  | .notFound path => "path not found: " ++ path.text
  | .permissionDenied path => "permission denied: " ++ path.text
  | .system path cause => "IO error at " ++ path.text ++ ": " ++ cause

/-- A comparison that stops. -/
inductive CompareFailure where
  /-- One of the files cannot be read. -/
  | read (cause : ReadFailure)
  /-- There is no memory for another finding. -/
  | memory (collected : List Finding)
deriving DecidableEq, Repr

/-- The message of a comparison that stops. -/
def CompareFailure.message : CompareFailure → String
  | .read cause => cause.message
  | .memory collected => "out of memory after " ++ collected.length.repr ++ " findings"

/-- A run that gives up. -/
inductive Failure where
  /-- The path to work on is not there. -/
  | pathNotFound (path : Path)
  /-- The path to work on must not be read. -/
  | permissionDenied (path : Path)
  /-- There is no source file below the path. -/
  | noSourceFiles (path : Path)
  /-- The system reports a cause. -/
  | system (cause : String)
  /-- The walk failed. -/
  | walk (cause : WalkFailure)
  /-- A file cannot be read. -/
  | read (cause : ReadFailure)
deriving DecidableEq, Repr

namespace Failure

/-- The message of a run that gives up. -/
def message : Failure → String
  | .pathNotFound path => "path not found: " ++ path.text
  | .permissionDenied path => "permission denied: " ++ path.text
  | .noSourceFiles path => "no C or C++ source files found in " ++ path.text
  | .system cause => "IO error: " ++ cause
  | .walk cause => "walk error: " ++ cause.message
  | .read cause => "parse error: " ++ cause.message

/-- The exit code of a run that gives up. -/
def exitCode : Failure → Nat
  | .pathNotFound _ => 3
  | .permissionDenied _ => 4
  | .noSourceFiles _ => 5
  | .system _ => 2
  | .walk _ => 2
  | .read _ => 2

/-- A failed walk as a failure of the run. -/
def ofWalk : WalkFailure → Failure
  | .notFound path => .pathNotFound path
  | .permissionDenied path => .permissionDenied path
  | cause => .walk cause

end Failure

end HeaderLint
