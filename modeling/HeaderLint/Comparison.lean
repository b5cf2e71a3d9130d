import HeaderLint.Config
import HeaderLint.Inventory
import HeaderLint.Text.Blank

/-!
# Comparing an implementation with its header

Static functions and exempt names take no part.  The comparison goes over each file
once and reports a name at its first record that takes part.

* Over the definitions of the implementation: the header must have a record of the
  name, and its signature must agree with that of the definition.
* Over the records of the header: each must be documented, and each that is no
  definition must have a definition in the implementation.

Two signatures are compared in one of two ways.  By default the return type and the
number of parameters must agree, and any difference is one finding.  In the strict
way the return type, the number of parameters and, if the numbers agree, the type
of each parameter give findings of their own.  Types are compared with one space
between words.
-/

namespace HeaderLint

open Text

/-! ## Findings -/

/-- A difference between a header and its implementation. -/
structure Finding where
  /-- The name of the function. -/
  functionName : String
  /-- What differs. -/
  kind : FindingKind
  /-- The line of the function in the header, if the header is concerned. -/
  headerLine : Option Nat
  /-- The line of the function in the implementation, if it is concerned. -/
  implementationLine : Option Nat
  /-- The finding in words. -/
  description : String
deriving DecidableEq, Repr

namespace Finding

/-- The category of a finding. -/
def category (f : Finding) : Category :=
  if f.kind = .docInconsistency then .info else .header

/-- The severity of a finding. -/
def severity (f : Finding) : Severity :=
  if f.kind = .docInconsistency then .info else .warning

/-- The file and the line of a finding.  It points at the implementation if that is
concerned. -/
def location (f : Finding) (implementation header : Path) : Path × Nat :=
  match f.implementationLine, f.headerLine with
  | some line, _ => (implementation, line)
  | none, some line => (header, line)
  | none, none => (implementation, 1)

/-- The violation that a finding is. -/
def toViolation (implementation header : Path) (f : Finding) : Violation :=
  let (file, line) := f.location implementation header
  ⟨.finding f.kind, f.severity, f.category, file, line, f.description⟩

/-- The violations that findings are, in the same order. -/
def toViolations (findings : List Finding) (implementation header : Path) : List Violation :=
  findings.map (toViolation implementation header)

end Finding

/-! ## Signatures -/

/-- A type with one space between words. -/
def normalizeType (type : String) : String := String.ofList (spaced type.toList)

/-- The finding about a pair of records. -/
def pairFinding (decl defn : FunctionRecord) (kind : FindingKind) (description : String) :
    Finding :=
  ⟨defn.name, kind, some decl.line, some defn.line, description⟩

/-- The findings of parameters whose types differ.  `index` counts the parameters
before. -/
def parameterFindings (decl defn : FunctionRecord) (index : Nat) :
    List Parameter → List Parameter → List Finding
  | p :: ps, q :: qs =>
    let inHeader := normalizeType p.type
    let inImplementation := normalizeType q.type
    let rest := parameterFindings decl defn (index + 1) ps qs
    if inHeader = inImplementation then rest
    else
      pairFinding decl defn .parameterMismatch
        ("parameter " ++ (index + 1).repr ++ " of '" ++ defn.name ++ "' is '" ++ inHeader ++
          "' in header but '" ++ inImplementation ++ "' in implementation") :: rest
  | _, _ => []

/-- The return types differ. -/
def returnDiffers (decl defn : FunctionRecord) : Bool :=
  normalizeType decl.returnType != normalizeType defn.returnType

/-- The numbers of parameters differ. -/
def countDiffers (decl defn : FunctionRecord) : Bool :=
  decl.parameters.length != defn.parameters.length

/-- The findings of the default comparison of signatures. -/
def looseFindings (decl defn : FunctionRecord) : List Finding :=
  if returnDiffers decl defn || countDiffers decl defn then
    [pairFinding decl defn .signatureMismatch
      ("header declares '" ++ decl.render ++ "' but implementation defines '" ++ defn.render ++
        "'")]
  else []

/-- The finding about return types in the strict comparison. -/
def returnFindings (decl defn : FunctionRecord) : List Finding :=
  if returnDiffers decl defn then
    [pairFinding decl defn .returnTypeMismatch
      ("'" ++ defn.name ++ "' returns '" ++ normalizeType decl.returnType ++ "' in header but '" ++
        normalizeType defn.returnType ++ "' in implementation")]
  else []

/-- The findings about parameters in the strict comparison. -/
def strictParameterFindings (decl defn : FunctionRecord) : List Finding :=
  if countDiffers decl defn then
    [pairFinding decl defn .parameterMismatch
      ("'" ++ defn.name ++ "' takes " ++ decl.parameters.length.repr ++
        " parameter(s) in header but " ++ defn.parameters.length.repr ++ " in implementation")]
  else parameterFindings decl defn 0 decl.parameters defn.parameters

/-- The findings of comparing a declaration with a definition. -/
def signatureFindings (config : Config) (decl defn : FunctionRecord) : List Finding :=
  if config.strictSignatures then returnFindings decl defn ++ strictParameterFindings decl defn
  else looseFindings decl defn

/-! ## Inventories -/

/-- The record takes part in the comparison. -/
def FunctionRecord.isEligible (config : Config) (f : FunctionRecord) : Bool :=
  !f.isStatic && !config.isExempt f.name

namespace Inventory

/-- The definitions that the comparison goes over. -/
def comparedDefinitions (inv : Inventory) (config : Config) : List FunctionRecord :=
  firstRecords (inv.functions.filter fun f => f.isDefinition && f.isEligible config)

/-- The records of a header that the comparison goes over. -/
def comparedRecords (inv : Inventory) (config : Config) : List FunctionRecord :=
  firstRecords (inv.functions.filter fun f => f.isEligible config)

/-- The findings about a definition of the implementation. -/
def definitionFindings (header : Inventory) (config : Config) (defn : FunctionRecord) :
    List Finding :=
  match header.function? defn.name with
  | some decl => signatureFindings config decl defn
  | none =>
    [⟨defn.name, .missingDeclaration, none, some defn.line,
      "'" ++ defn.name ++ "' is defined but not declared in " ++ header.path.text⟩]

/-- The finding about a header record without documentation. -/
def undocumentedFindings (decl : FunctionRecord) : List Finding :=
  if decl.isDocumented then []
  else
    [⟨decl.name, .docInconsistency, some decl.line, none,
      "header declaration of '" ++ decl.name ++ "' is undocumented"⟩]

/-- The finding about a declaration without a definition. -/
def unimplementedFindings (implementation : Inventory) (decl : FunctionRecord) : List Finding :=
  if decl.isDefinition || (implementation.definition? decl.name).isSome then []
  else
    [⟨decl.name, .missingImplementation, some decl.line, none,
      "'" ++ decl.name ++ "' is declared but not implemented in " ++ implementation.path.text⟩]

/-- The differences between an implementation and its header. -/
def compare (implementation header : Inventory) (config : Config) : List Finding :=
  (implementation.comparedDefinitions config).flatMap (definitionFindings header config) ++
    (header.comparedRecords config).flatMap fun decl =>
      undocumentedFindings decl ++ unimplementedFindings implementation decl

end Inventory

end HeaderLint
