import HeaderLint.Proofs.DocCheck.Missing

/-!
# The pieces that a message names

A violation of improper format names pieces of documentation.  They are the pieces that the
signature of the first record asks for (`FunctionRecord.requiredPieces`) and that its
documentation does not have (`FunctionRecord.hasPiece`).  So no such piece is in the
documentation of that record (`FunctionRecord.mem_missingPieces_iff`).

But whether a name has an improper format depends on all its records, and the first one need not
be documented.  If it is not, the message names every piece that it asks for
(`FunctionRecord.missingPieces_of_documentation`), those included that the documentation of a
later record has.  `Inventory.formatMessage_names_iff` says when the message is right all the same,
and `Inventory.formatMessage_undocumented_first` that it need not be.
-/

namespace HeaderLint

open DocLine

namespace FunctionRecord

/-! ## Pieces -/

/-- The lines of the documentation, of which there are none without documentation. -/
def docLines (f : FunctionRecord) : List DocLine := ofComment (f.documentation.getD "")

/-- The documentation has the piece. -/
def hasPiece (f : FunctionRecord) : DocPiece → Bool
  | .description => f.docLines.any fun line => isDescription line f.parameterNames
  | .parameter name => f.docLines.any fun line => describesParameter line name
  | .returnValue => f.docLines.any describesReturn
  | .note => f.docLines.any isNote

/-- The pieces of complete documentation for the signature, in the order of a message. -/
def requiredPieces (f : FunctionRecord) : List DocPiece :=
  [.description] ++ f.parameterNames.map .parameter ++
    (if f.returnsVoid then [] else [.returnValue]) ++ [.note]

theorem filter_singleton_not (p : DocPiece → Bool) (piece : DocPiece) :
    [piece].filter (fun q => !p q) = if p piece then [] else [piece] := by
  rw [List.filter_cons, List.filter_nil]
  cases p piece <;> rfl

/-- What is missing are the required pieces that the documentation does not have. -/
theorem missingPieces_eq_filter (f : FunctionRecord) :
    f.missingPieces = f.requiredPieces.filter fun piece => !f.hasPiece piece := by
  have hreturn : ((if f.returnsVoid then [] else [DocPiece.returnValue]).filter fun piece =>
      !f.hasPiece piece) =
        if f.returnsVoid || f.hasPiece .returnValue then [] else [.returnValue] := by
    cases f.returnsVoid with
    | true => rfl
    | false => exact filter_singleton_not f.hasPiece .returnValue
  rw [requiredPieces, List.filter_append, List.filter_append, List.filter_append,
    filter_singleton_not, filter_singleton_not, hreturn, List.filter_map]
  rfl

theorem mem_missingPieces_iff {f : FunctionRecord} {piece : DocPiece} :
    piece ∈ f.missingPieces ↔ piece ∈ f.requiredPieces ∧ f.hasPiece piece = false := by
  rw [missingPieces_eq_filter, List.mem_filter, Bool.not_eq_true']

/-- Without documentation every required piece is missing. -/
theorem missingPieces_of_documentation {f : FunctionRecord} (h : f.isDocumented = false) :
    f.missingPieces = f.requiredPieces := by
  have hlines : f.docLines = [] := by
    rw [isDocumented, Option.isSome_eq_false_iff, Option.isNone_iff_eq_none] at h
    rw [docLines, h]
    rfl
  rw [missingPieces_eq_filter, List.filter_eq_self]
  intro piece _
  cases piece <;> rw [hasPiece, hlines] <;> rfl

end FunctionRecord

/-! ## Messages -/

namespace Inventory

variable {inv : Inventory} {config : Config}

/-- The message of a violation of improper format names what the first record of its name lacks.
This is just what some documented record of the name lacks if, and only if, the first record is
documented itself, or some documented record has none of the pieces that the first one asks
for. -/
theorem formatMessage_names_iff {v : Violation} (hv : v ∈ inv.docViolations config)
    (hkind : v.kind = .improperDocumentationFormat) :
    ∃ f, inv.function? f.name = some f ∧ v.line = f.line ∧ v.message = f.formatMessage ∧
      ((∃ g ∈ inv.functions, g.name = f.name ∧ g.isDocumented = true ∧
          g.missingPieces = f.missingPieces) ↔
        f.isDocumented = true ∨
          ∃ g ∈ inv.functions, g.name = f.name ∧ g.isDocumented = true ∧
            g.missingPieces = f.requiredPieces) := by
  obtain ⟨f, hfirst, -, hv⟩ := mem_docViolations_iff.mp hv
  rcases docViolation?_eq_some_iff.mp hv with ⟨-, rfl⟩ | ⟨-, -, -, rfl⟩
  · cases hkind
  refine ⟨f, hfirst, rfl, rfl, ?_⟩
  cases hdoc : f.isDocumented with
  | true =>
    have hself : ∃ g ∈ inv.functions, g.name = f.name ∧ g.isDocumented = true ∧
        g.missingPieces = f.missingPieces :=
      ⟨f, List.mem_of_find?_eq_some hfirst, rfl, hdoc, rfl⟩
    exact ⟨fun _ => .inl rfl, fun _ => hself⟩
  | false =>
    rw [FunctionRecord.missingPieces_of_documentation hdoc]
    exact ⟨.inr, fun h => h.resolve_left Bool.false_ne_true⟩

/-- Of two documented records the first one decides the message. -/
theorem formatMessage_names_iff_two :
    (⟨.improperDocumentationFormat, .warning, .documentation, ⟨"a.h"⟩, 2,
        "documentation for 'f' is missing a return value description, a `--` annotation"⟩ ∈
      (ofSource ⟨"a.h"⟩ "// Adds.\nint f(int);\n// -- Pure.\nint f(int a);\n").docViolations
        { checkFormat := true }) ∧
    ∃ f, (ofSource ⟨"a.h"⟩ "// Adds.\nint f(int);\n// -- Pure.\nint f(int a);\n").function?
        f.name = some f ∧ 2 = f.line ∧
      "documentation for 'f' is missing a return value description, a `--` annotation" =
        f.formatMessage ∧
      ((∃ g ∈ (ofSource ⟨"a.h"⟩ "// Adds.\nint f(int);\n// -- Pure.\nint f(int a);\n").functions,
          g.name = f.name ∧ g.isDocumented = true ∧ g.missingPieces = f.missingPieces) ↔
        f.isDocumented = true ∨
          ∃ g ∈ (ofSource ⟨"a.h"⟩
              "// Adds.\nint f(int);\n// -- Pure.\nint f(int a);\n").functions,
            g.name = f.name ∧ g.isDocumented = true ∧ g.missingPieces = f.requiredPieces) := by
  have hv : ⟨.improperDocumentationFormat, .warning, .documentation, ⟨"a.h"⟩, 2,
        "documentation for 'f' is missing a return value description, a `--` annotation"⟩ ∈
      (ofSource ⟨"a.h"⟩ "// Adds.\nint f(int);\n// -- Pure.\nint f(int a);\n").docViolations
        { checkFormat := true } := by decide +kernel
  exact ⟨hv, formatMessage_names_iff hv rfl⟩

/-- The message says that a description is missing, though the only documentation of the name
consists of one. -/
theorem formatMessage_undocumented_first :
    (⟨.improperDocumentationFormat, .warning, .documentation, ⟨"test.c"⟩, 1,
        "documentation for 'f' is missing a description, a return value description, " ++
          "a `--` annotation"⟩ ∈
      (ofSource ⟨"test.c"⟩
        "int f(void);\n/* Adds. */\nint f(void) \x7b return 0; \x7d\n").docViolations
        { checkFormat := true }) ∧
    (∃ g ∈ (ofSource ⟨"test.c"⟩
          "int f(void);\n/* Adds. */\nint f(void) \x7b return 0; \x7d\n").functions,
      g.isDocumented = true ∧ g.hasPiece .description = true) ∧
    ∀ g ∈ (ofSource ⟨"test.c"⟩
          "int f(void);\n/* Adds. */\nint f(void) \x7b return 0; \x7d\n").functions,
      g.isDocumented = true →
        g.formatMessage ≠
          "documentation for 'f' is missing a description, a return value description, " ++
            "a `--` annotation" := by
  decide +kernel

end Inventory

end HeaderLint
