import HeaderLint.Config
import HeaderLint.Inventory

/-!
# The documentation check

Every name of a file but the entry point is checked once, at its first record.

* A name of which no record is documented is missing documentation.
* If the format is checked, a name of which no record has complete documentation
  has documentation in an improper format.  The message lists what the first
  record lacks.
-/

namespace HeaderLint

namespace FunctionRecord

/-- The message for a name without documentation. -/
def missingMessage (f : FunctionRecord) : String :=
  "function '" ++ f.name ++ "' has no documentation"

/-- The message for documentation in an improper format. -/
def formatMessage (f : FunctionRecord) : String :=
  "documentation for '" ++ f.name ++ "' is missing " ++
    ", ".intercalate (f.missingPieces.map DocPiece.describe)

end FunctionRecord

namespace Inventory

/-- The violation of a name at its first record, if there is one. -/
def docViolation? (inv : Inventory) (config : Config) (f : FunctionRecord) : Option Violation :=
  if !inv.isDocumented f.name then
    some ⟨.missingDocumentation, config.strictness.missingSeverity, .documentation, inv.path,
      f.line, f.missingMessage⟩
  else if config.checkFormat && !inv.isComplete f.name then
    some ⟨.improperDocumentationFormat, config.strictness.formatSeverity, .documentation, inv.path,
      f.line, f.formatMessage⟩
  else none

/-- The documentation violations of a file, in the order of its functions. -/
def docViolations (inv : Inventory) (config : Config) : List Violation :=
  ((firstRecords inv.functions).filter fun f => f.name != config.entryPoint).filterMap
    (inv.docViolation? config)

end Inventory

end HeaderLint
