import HeaderLint.Path

/-!
# Violations

A violation says what is wrong, how severe it is, where it is, and in words what it
is about.  `Violation.render` writes it on one line.
-/

namespace HeaderLint

/-- How severe a violation is, least severe first. -/
inductive Severity where
  | info
  | warning
  | error
deriving DecidableEq, Repr

namespace Severity

/-- The name of the severity. -/
def name : Severity → String
  | .info => "info"
  | .warning => "warning"
  | .error => "error"

/-- The place of the severity in the order. -/
def rank : Severity → Nat
  | .info => 0
  | .warning => 1
  | .error => 2

/-- Every severity. -/
def all : List Severity := [.info, .warning, .error]

end Severity

/-- The part of the program that found a violation. -/
inductive Category where
  /-- The documentation of a function. -/
  | documentation
  /-- A difference between header and implementation. -/
  | header
  /-- A remark. -/
  | info
deriving DecidableEq, Repr

namespace Category

/-- The name of the category in data. -/
def name : Category → String
  | .documentation => "documentation"
  | .header => "header"
  | .info => "info"

/-- The name of the category in text for a reader. -/
def title : Category → String
  | .documentation => "Docs"
  | .header => "Header"
  | .info => "Info"

/-- Every category. -/
def all : List Category := [.documentation, .header, .info]

end Category

/-- What differs between a header and its implementation. -/
inductive FindingKind where
  | signatureMismatch
  | missingDeclaration
  | missingImplementation
  | docInconsistency
  | parameterMismatch
  | returnTypeMismatch
deriving DecidableEq, Repr

namespace FindingKind

/-- The name of the kind. -/
def name : FindingKind → String
  | .signatureMismatch => "signature-mismatch"
  | .missingDeclaration => "missing-declaration"
  | .missingImplementation => "missing-implementation"
  | .docInconsistency => "doc-inconsistency"
  | .parameterMismatch => "parameter-mismatch"
  | .returnTypeMismatch => "return-type-mismatch"

/-- Every kind. -/
def all : List FindingKind :=
  [.signatureMismatch, .missingDeclaration, .missingImplementation, .docInconsistency,
   .parameterMismatch, .returnTypeMismatch]

end FindingKind

/-- What is wrong. -/
inductive ViolationKind where
  | missingDocumentation
  | improperDocumentationFormat
  /-- Header and implementation differ. -/
  | finding (kind : FindingKind)
deriving DecidableEq, Repr

namespace ViolationKind

/-- The name of the kind. -/
def name : ViolationKind → String
  | .missingDocumentation => "missing-documentation"
  | .improperDocumentationFormat => "improper-documentation-format"
  | .finding kind => kind.name

/-- Every kind. -/
def all : List ViolationKind :=
  [.missingDocumentation, .improperDocumentationFormat] ++ FindingKind.all.map .finding

end ViolationKind

/-- A violation in a file. -/
structure Violation where
  /-- What is wrong. -/
  kind : ViolationKind
  /-- How severe it is. -/
  severity : Severity
  /-- Who found it. -/
  category : Category
  /-- The file it is in. -/
  file : Path
  /-- The line it is at. -/
  line : Nat
  /-- What it is about. -/
  message : String
deriving DecidableEq, Repr

namespace Violation

/-- The violation on one line. -/
def render (v : Violation) : String :=
  v.file.text ++ ":" ++ v.line.repr ++ ": " ++ v.severity.name ++ " [" ++ v.category.title ++
    "] " ++ v.kind.name ++ ": " ++ v.message

end Violation

example : Violation.render
      ⟨.missingDocumentation, .error, .documentation, ⟨"src/math.c"⟩, 12,
        "function 'add' has no documentation"⟩
    = "src/math.c:12: error [Docs] missing-documentation: function 'add' has no documentation" := by
  decide +kernel

end HeaderLint
