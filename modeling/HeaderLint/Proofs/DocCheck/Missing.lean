import HeaderLint.DocCheck
import HeaderLint.Proofs.Comparison.ByName

/-!
# Names without documentation

The documentation check looks at every name but the entry point once, at its first record,
and what it says of a name depends on all the records of it.  `Inventory.mem_docViolations_iff`
says which violations come out, so that no later proof opens the check.

`Inventory.ReportsMissing` says that the documentation check reports a name as missing
documentation.  It does so for the names of the file but the entry point of which no
record is documented (`Inventory.reportsMissing_iff`).
-/

namespace HeaderLint

/-! ## First records -/

/-- A first record is the one that a look-up by its name finds. -/
theorem mem_firstRecords_iff {fs : List FunctionRecord} {f : FunctionRecord} :
    f ∈ firstRecords fs ↔ fs.find? (fun g => g.name == f.name) = some f := by
  have hfilter : f ∈ firstRecords fs ↔ f ∈ (firstRecords fs).filter fun g => g.name == f.name := by
    rw [List.mem_filter, beq_self_eq_true]
    simp only [and_true]
  rw [hfilter, filter_firstRecords, Option.mem_toList]

namespace Inventory

variable {inv : Inventory} {config : Config}

/-- A look-up by the name of a record finds the first record of that name. -/
theorem exists_function? {f : FunctionRecord} (h : f ∈ inv.functions) :
    ∃ g, inv.function? f.name = some g ∧ g.name = f.name := by
  obtain ⟨g, hg⟩ : ∃ g, inv.functions.find? (fun g => g.name == f.name) = some g :=
    Option.isSome_iff_exists.mp (List.find?_isSome.mpr ⟨f, h, beq_self_eq_true f.name⟩)
  have hname := List.find?_some hg
  exact ⟨g, hg, beq_iff_eq.mp hname⟩

/-! ## The violations of the check -/

/-- What the check says of a record: its name is missing documentation, or the format is
checked and the documentation of its name is not complete. -/
theorem docViolation?_eq_some_iff {f : FunctionRecord} {v : Violation} :
    inv.docViolation? config f = some v ↔
      (inv.isDocumented f.name = false ∧
        v = ⟨.missingDocumentation, config.strictness.missingSeverity, .documentation, inv.path,
          f.line, f.missingMessage⟩) ∨
      (config.checkFormat = true ∧ inv.isDocumented f.name = true ∧
        inv.isComplete f.name = false ∧
        v = ⟨.improperDocumentationFormat, config.strictness.formatSeverity, .documentation,
          inv.path, f.line, f.formatMessage⟩) := by
  rw [docViolation?]
  cases inv.isDocumented f.name with
  | false =>
    simp only [Bool.not_false, if_true, Option.some.injEq, true_and, Bool.false_eq_true, false_and,
      and_false, or_false]
    exact eq_comm
  | true =>
    cases config.checkFormat with
    | false => simp
    | true =>
      cases inv.isComplete f.name with
      | false =>
        simp only [Bool.not_true, Bool.not_false, Bool.true_and, Bool.false_eq_true, if_true,
          if_false, Option.some.injEq, Bool.true_eq_false, false_and, true_and, false_or]
        exact eq_comm
      | true => simp

/-- A violation is what the check says of the first record of a name but the entry point. -/
theorem mem_docViolations_iff {v : Violation} :
    v ∈ inv.docViolations config ↔
      ∃ f, inv.function? f.name = some f ∧ f.name ≠ config.entryPoint ∧
        inv.docViolation? config f = some v := by
  rw [docViolations, List.mem_filterMap]
  refine exists_congr fun f => ?_
  rw [List.mem_filter, mem_firstRecords_iff, bne_iff_ne, and_assoc]
  rfl

/-! ## Missing documentation -/

/-- The check reports the name as missing documentation. -/
def ReportsMissing (inv : Inventory) (config : Config) (name : String) : Prop :=
  ∃ v ∈ inv.docViolations config,
    v.kind = .missingDocumentation ∧ v.message = "function '" ++ name ++ "' has no documentation"

theorem reportsMissing_iff {name : String} :
    inv.ReportsMissing config name ↔
      name ≠ config.entryPoint ∧ inv.isDocumented name = false ∧
        ∃ f ∈ inv.functions, f.name = name := by
  constructor
  · rintro ⟨v, hv, hkind, hmessage⟩
    obtain ⟨f, hfirst, hentry, hv⟩ := mem_docViolations_iff.mp hv
    rcases docViolation?_eq_some_iff.mp hv with ⟨hdoc, rfl⟩ | ⟨-, -, -, rfl⟩
    · have hname : f.name = name := by
        rw [FunctionRecord.missingMessage, String.append_left_inj, String.append_right_inj]
          at hmessage
        exact hmessage
      rw [hname] at hdoc hentry
      exact ⟨hentry, hdoc, f, List.mem_of_find?_eq_some hfirst, hname⟩
    · cases hkind
  · rintro ⟨hentry, hdoc, f, hf, rfl⟩
    obtain ⟨g, hg, hname⟩ := exists_function? hf
    refine ⟨_, mem_docViolations_iff.mpr ⟨g, hname ▸ hg, ?_,
      docViolation?_eq_some_iff.mpr (.inl ⟨?_, rfl⟩)⟩, rfl, ?_⟩
    · rw [hname]
      exact hentry
    · rw [hname]
      exact hdoc
    · rw [FunctionRecord.missingMessage, hname]

end Inventory

end HeaderLint
