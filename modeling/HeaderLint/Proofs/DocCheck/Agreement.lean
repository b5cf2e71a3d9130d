import HeaderLint.Proofs.DocCheck.Pieces
import HeaderLint.Proofs.DocCheck.Verdicts

/-!
# The verdict and the message

The rule for complete documentation is read twice.  The verdict on a record goes through the
pieces and stops at the first one that is not there (`FunctionRecord.isComplete`), and the message
lists all of them that are not (`FunctionRecord.missingPieces`).  The verdict rejects a record
without documentation at once, where the list reads an empty text.

Both come down to the pieces that the signature asks for: the verdict is that there is
documentation and has them all (`FunctionRecord.isComplete_iff`), and the list is empty if it has
them all (`FunctionRecord.missingPieces_eq_nil_iff`).  An empty text never has a description, so
the two agree (`FunctionRecord.isComplete_iff_missingPieces_eq_nil`).

The verdict on a name looks at all its records and the message at the first one.  But a name has an
improper format only if each of its records is incomplete, the first one with them.  So a message
always names a piece (`Inventory.formatMessage_names_missing`).
-/

namespace HeaderLint

open DocLine

namespace FunctionRecord

variable {f : FunctionRecord}

/-! ## The pieces that are asked for -/

theorem forall_mem_requiredPieces {P : DocPiece → Prop} :
    (∀ piece ∈ f.requiredPieces, P piece) ↔
      P .description ∧ (∀ name ∈ f.parameterNames, P (.parameter name)) ∧
        (f.returnsVoid = true ∨ P .returnValue) ∧ P .note := by
  have hreturn : (∀ piece ∈ if f.returnsVoid then [] else [DocPiece.returnValue], P piece) ↔
      f.returnsVoid = true ∨ P .returnValue := by
    cases f.returnsVoid with
    | true => exact iff_of_true (List.forall_mem_nil _) (.inl rfl)
    | false =>
      rw [if_neg Bool.false_ne_true, List.forall_mem_singleton]
      exact (or_iff_right Bool.false_ne_true).symm
  rw [requiredPieces, List.forall_mem_append, List.forall_mem_append, List.forall_mem_append,
    List.forall_mem_singleton, List.forall_mem_singleton, List.forall_mem_map, hreturn, and_assoc,
    and_assoc]

theorem requiredPieces_ne_nil : f.requiredPieces ≠ [] := List.cons_ne_nil _ _

/-- Documentation is complete if it is there and has every piece that is asked for. -/
theorem isComplete_iff :
    f.isComplete = true ↔
      f.isDocumented = true ∧ ∀ piece ∈ f.requiredPieces, f.hasPiece piece = true := by
  rw [forall_mem_requiredPieces, isComplete, isDocumented]
  simp only [hasPiece, docLines]
  cases f.documentation with
  | none => exact iff_of_false Bool.false_ne_true fun h => Bool.false_ne_true h.1
  | some text =>
    simp only [Option.isSome_some, Option.getD_some, Bool.and_eq_true, Bool.or_eq_true,
      List.all_eq_true, true_and, and_assoc]

/-! ## The pieces that are missing -/

theorem missingPieces_eq_nil_iff :
    f.missingPieces = [] ↔ ∀ piece ∈ f.requiredPieces, f.hasPiece piece = true := by
  simp only [missingPieces_eq_filter, List.filter_eq_nil_iff, Bool.not_eq_true', Bool.not_eq_false]

/-- Where nothing is missing there is documentation. -/
theorem isDocumented_of_missingPieces (h : f.missingPieces = []) : f.isDocumented = true := by
  cases hdoc : f.isDocumented with
  | true => rfl
  | false =>
    rw [missingPieces_of_documentation hdoc] at h
    exact absurd h requiredPieces_ne_nil

/-- Documentation is complete if no piece is missing. -/
theorem isComplete_iff_missingPieces_eq_nil : f.isComplete = true ↔ f.missingPieces = [] := by
  rw [isComplete_iff, ← missingPieces_eq_nil_iff]
  exact ⟨And.right, fun h => ⟨isDocumented_of_missingPieces h, h⟩⟩

end FunctionRecord

namespace Inventory

variable {inv : Inventory} {config : Config}

/-- A violation of improper format is made at the first record of a name, and lists what is
missing there.  The documentation of that record is not complete. -/
theorem exists_record_of_improper {v : Violation} (hv : v ∈ inv.docViolations config)
    (hkind : v.kind = .improperDocumentationFormat) :
    ∃ f, inv.function? f.name = some f ∧ f.isComplete = false ∧ v.line = f.line ∧
      v.message = f.formatMessage := by
  obtain ⟨f, hfirst, -, hv⟩ := mem_docViolations_iff.mp hv
  rcases docViolation?_eq_some_iff.mp hv with ⟨-, rfl⟩ | ⟨-, -, hcomplete, rfl⟩
  · cases hkind
  · have hincomplete := isComplete_eq_false_iff.mp hcomplete f (List.mem_of_find?_eq_some hfirst)
    exact ⟨f, hfirst, hincomplete rfl, rfl, rfl⟩

/-- Documentation is complete just if no piece of it is listed as missing.  So the message of
every violation of improper format names a piece, and names only pieces that the first record of
its name asks for and does not have. -/
theorem formatMessage_names_missing :
    (∀ f : FunctionRecord, f.isComplete = true ↔ f.missingPieces = []) ∧
    ∀ (inv : Inventory) (config : Config), ∀ v ∈ inv.docViolations config,
      v.kind = .improperDocumentationFormat →
        ∃ f pieces, inv.function? f.name = some f ∧ v.line = f.line ∧ pieces ≠ [] ∧
          (∀ piece ∈ pieces, piece ∈ f.requiredPieces ∧ f.hasPiece piece = false) ∧
          v.message = "documentation for '" ++ f.name ++ "' is missing " ++
            ", ".intercalate (pieces.map DocPiece.describe) := by
  refine ⟨fun f => FunctionRecord.isComplete_iff_missingPieces_eq_nil, ?_⟩
  intro inv config v hv hkind
  obtain ⟨f, hfirst, hcomplete, hline, hmessage⟩ := exists_record_of_improper hv hkind
  refine ⟨f, f.missingPieces, hfirst, hline, ?_, ?_, hmessage⟩
  · intro hnil
    rw [FunctionRecord.isComplete_iff_missingPieces_eq_nil.mpr hnil] at hcomplete
    cases hcomplete
  · intro piece hpiece
    exact FunctionRecord.mem_missingPieces_iff.mp hpiece

/-- The first record is the one without documentation, and the message names what it asks for. -/
theorem formatMessage_names_missing_undocumented :
    ∃ v ∈ (ofSource ⟨"a.h"⟩ "int f(int);\n// Adds.\nint f(int a);\n").docViolations
        { checkFormat := true },
      v.kind = .improperDocumentationFormat ∧
        ∃ f pieces,
          (ofSource ⟨"a.h"⟩ "int f(int);\n// Adds.\nint f(int a);\n").function? f.name = some f ∧
          v.line = f.line ∧ pieces ≠ [] ∧
          (∀ piece ∈ pieces, piece ∈ f.requiredPieces ∧ f.hasPiece piece = false) ∧
          v.message = "documentation for '" ++ f.name ++ "' is missing " ++
            ", ".intercalate (pieces.map DocPiece.describe) := by
  have hv : ⟨.improperDocumentationFormat, .warning, .documentation, ⟨"a.h"⟩, 1,
        "documentation for 'f' is missing a description, a return value description, " ++
          "a `--` annotation"⟩ ∈
      (ofSource ⟨"a.h"⟩ "int f(int);\n// Adds.\nint f(int a);\n").docViolations
        { checkFormat := true } := by decide +kernel
  exact ⟨_, hv, rfl, formatMessage_names_missing.2 _ _ _ hv rfl⟩

end Inventory

end HeaderLint
