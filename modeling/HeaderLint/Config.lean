import HeaderLint.Text.Alphanumeric
import HeaderLint.Violation

/-!
# Configuration

The configuration of a run is a value that every check takes as an argument.  The
strictness decides only how severe the documentation violations are.  A name is
exempt from cross-referencing when it is the entry point or starts with a reserved
beginning.
-/

namespace HeaderLint

open Text

/-- How severely documentation problems are reported. -/
inductive Strictness where
  | lenient
  | standard
  | strict
deriving DecidableEq, Repr

namespace Strictness

/-- The name of the strictness. -/
def name : Strictness → String
  | .lenient => "lenient"
  | .standard => "standard"
  | .strict => "strict"

/-- Every strictness, least strict first. -/
def all : List Strictness := [.lenient, .standard, .strict]

/-- The strictness with a given name. -/
def ofName? (s : String) : Option Strictness := all.find? fun x => x.name == s

/-- The strictness with a given name in any case. -/
def parse? (s : String) : Option Strictness := ofName? (String.ofList (lowerAscii s.toList))

/-- The severity of a function without documentation. -/
def missingSeverity : Strictness → Severity
  | .lenient => .warning
  | .standard => .error
  | .strict => .error

/-- The severity of documentation that lacks a piece. -/
def formatSeverity : Strictness → Severity
  | .lenient => .info
  | .standard => .warning
  | .strict => .error

end Strictness

/-- The configuration of a run. -/
structure Config where
  /-- How severely documentation problems are reported. -/
  strictness : Strictness := .standard
  /-- The format of documentation is checked too. -/
  checkFormat : Bool := false
  /-- Implementations are compared with their headers. -/
  crossReference : Bool := true
  /-- Parameter types are compared too. -/
  strictSignatures : Bool := false
  /-- The directory where pairing looks after the working directory. -/
  projectRoot : Option Path := none
  /-- Further directories below the conventional one where pairing looks. -/
  includeSubdirs : List String := []
  /-- The function that the documentation check passes over. -/
  entryPoint : String := "main"
  /-- Beginnings of names that are exempt from cross-referencing. -/
  reservedPrefixes : List String := ["test_", "debug_"]
deriving DecidableEq, Repr

namespace Config

/-- The name takes no part in cross-referencing. -/
def isExempt (config : Config) (name : String) : Bool :=
  name == config.entryPoint ||
    config.reservedPrefixes.any fun start => start.toList.isPrefixOf name.toList

end Config

end HeaderLint
