import HeaderLint.Proofs.DocCheck.Missing

/-!
# The verdicts of the documentation check

The check should come to at most one verdict on each name, in the order in which the names
first appear, and point it at the first record of the name.  Which verdict that is depends on
all the records of the name, documented or not, in whatever order they come
(`Inventory.IsCheckedBy`).

The check finds just that (`Inventory.docViolations_isCheckedBy`).  Two facts carry this: the
first records stand in the order of the names (`pairwise_findIdx_firstRecords`), and the
verdict on a record asks for nothing of it but its name
(`Inventory.docViolation?_eq_some_iff`).
-/

namespace HeaderLint

/-! ## The order of names -/

theorem findIdx_cons_of_name_ne {r f : FunctionRecord} (fs : List FunctionRecord)
    (h : r.name ≠ f.name) :
    (r :: fs).findIdx (fun g => g.name == f.name) = fs.findIdx (fun g => g.name == f.name) + 1 := by
  rw [List.findIdx_cons, beq_false_of_ne h]
  rfl

/-- The first records come in the order of the places of their names. -/
theorem pairwise_findIdx_firstRecords (fs : List FunctionRecord) :
    (firstRecords fs).Pairwise fun f g =>
      fs.findIdx (fun r => r.name == f.name) < fs.findIdx fun r => r.name == g.name := by
  induction fs with
  | nil => exact .nil
  | cons r fs ih =>
    have hne : ∀ f ∈ (firstRecords fs).filter fun g => g.name != r.name, r.name ≠ f.name :=
      fun f hf => Ne.symm (bne_iff_ne.mp (List.mem_filter.mp hf).2)
    rw [firstRecords]
    refine .cons (fun f hf => ?_) ((ih.filter _).imp_of_mem fun {f g} hf hg hlt => ?_)
    · rw [findIdx_cons_of_name_ne fs (hne f hf), List.findIdx_cons, beq_self_eq_true]
      exact Nat.succ_pos _
    · rw [findIdx_cons_of_name_ne fs (hne f hf), findIdx_cons_of_name_ne fs (hne g hg)]
      exact Nat.succ_lt_succ hlt

/-! ## Verdicts -/

/-- A violation with the record that it is about. -/
structure DocVerdict where
  /-- The record. -/
  record : FunctionRecord
  /-- The violation. -/
  violation : Violation

namespace Inventory

/-- The place of the first record of a name among the records. -/
def placeOf (inv : Inventory) (name : String) : Nat :=
  inv.functions.findIdx fun f => f.name == name

/-- What the documentation check of a file should find. -/
structure IsCheckedBy (inv : Inventory) (config : Config) (verdicts : List DocVerdict) : Prop where
  /-- The names are different, and come in the order of their first records. -/
  inOrder : verdicts.Pairwise fun p q => inv.placeOf p.record.name < inv.placeOf q.record.name
  /-- Each verdict is about the first record of its name. -/
  isFirst : ∀ p ∈ verdicts, inv.function? p.record.name = some p.record
  /-- No verdict is about the entry point. -/
  ne_entryPoint : ∀ p ∈ verdicts, p.record.name ≠ config.entryPoint
  /-- The violation points at the record, and is one of two. -/
  violation_eq : ∀ p ∈ verdicts,
    p.violation = ⟨.missingDocumentation, config.strictness.missingSeverity, .documentation,
        inv.path, p.record.line, p.record.missingMessage⟩ ∨
      p.violation = ⟨.improperDocumentationFormat, config.strictness.formatSeverity,
        .documentation, inv.path, p.record.line, p.record.formatMessage⟩
  /-- The names that miss documentation are those of which no record is documented. -/
  missing_iff : ∀ name,
    (∃ p ∈ verdicts, p.record.name = name ∧ p.violation.kind = .missingDocumentation) ↔
      name ≠ config.entryPoint ∧ (∃ f ∈ inv.functions, f.name = name) ∧
        ∀ f ∈ inv.functions, f.name = name → f.isDocumented = false
  /-- The names with an improper format are those of which some record is documented and none
  has complete documentation, if the format is checked. -/
  improper_iff : ∀ name,
    (∃ p ∈ verdicts, p.record.name = name ∧ p.violation.kind = .improperDocumentationFormat) ↔
      name ≠ config.entryPoint ∧ config.checkFormat = true ∧
        (∃ f ∈ inv.functions, f.name = name ∧ f.isDocumented = true) ∧
        ∀ f ∈ inv.functions, f.name = name → f.isComplete = false

variable {inv : Inventory} {config : Config}

theorem isDocumented_eq_false_iff {name : String} :
    inv.isDocumented name = false ↔
      ∀ f ∈ inv.functions, f.name = name → f.isDocumented = false := by
  simp only [isDocumented, List.any_eq_false, Bool.and_eq_true, beq_iff_eq, not_and,
    Bool.not_eq_true]

theorem isDocumented_eq_true_iff {name : String} :
    inv.isDocumented name = true ↔ ∃ f ∈ inv.functions, f.name = name ∧ f.isDocumented = true := by
  simp only [isDocumented, List.any_eq_true, Bool.and_eq_true, beq_iff_eq]

theorem isComplete_eq_false_iff {name : String} :
    inv.isComplete name = false ↔
      ∀ f ∈ inv.functions, f.name = name → f.isComplete = false := by
  simp only [isComplete, List.any_eq_false, Bool.and_eq_true, beq_iff_eq, not_and,
    Bool.not_eq_true]

/-- The violations of the check, each with the record that it is about. -/
def docVerdicts (inv : Inventory) (config : Config) : List DocVerdict :=
  ((firstRecords inv.functions).filter fun f => f.name != config.entryPoint).filterMap fun f =>
    (inv.docViolation? config f).map (DocVerdict.mk f)

theorem map_violation_docVerdicts (inv : Inventory) (config : Config) :
    (inv.docVerdicts config).map DocVerdict.violation = inv.docViolations config := by
  rw [docVerdicts, docViolations, List.map_filterMap]
  congr 1
  funext f
  rw [Option.map_map]
  exact Option.map_id_apply

theorem mem_docVerdicts_iff {p : DocVerdict} :
    p ∈ inv.docVerdicts config ↔
      inv.function? p.record.name = some p.record ∧ p.record.name ≠ config.entryPoint ∧
        inv.docViolation? config p.record = some p.violation := by
  rw [docVerdicts, List.mem_filterMap]
  constructor
  · rintro ⟨f, hf, hp⟩
    obtain ⟨v, hv, rfl⟩ := Option.map_eq_some_iff.mp hp
    rw [List.mem_filter, mem_firstRecords_iff, bne_iff_ne] at hf
    exact ⟨hf.1, hf.2, hv⟩
  · rintro ⟨hfirst, hentry, hv⟩
    refine ⟨p.record, ?_, Option.map_eq_some_iff.mpr ⟨p.violation, hv, rfl⟩⟩
    rw [List.mem_filter, mem_firstRecords_iff, bne_iff_ne]
    exact ⟨hfirst, hentry⟩

/-- A name has the verdict that its first record has. -/
theorem exists_mem_docVerdicts_iff {name : String} {kind : ViolationKind} :
    (∃ p ∈ inv.docVerdicts config, p.record.name = name ∧ p.violation.kind = kind) ↔
      name ≠ config.entryPoint ∧
        ∃ f, inv.function? name = some f ∧ f.name = name ∧
          ∃ v, inv.docViolation? config f = some v ∧ v.kind = kind := by
  constructor
  · rintro ⟨p, hp, rfl, hkind⟩
    obtain ⟨hfirst, hentry, hv⟩ := mem_docVerdicts_iff.mp hp
    exact ⟨hentry, p.record, hfirst, rfl, p.violation, hv, hkind⟩
  · rintro ⟨hentry, f, hfirst, rfl, v, hv, hkind⟩
    exact ⟨⟨f, v⟩, mem_docVerdicts_iff.mpr ⟨hfirst, hentry, hv⟩, rfl, hkind⟩

theorem pairwise_docVerdicts (inv : Inventory) (config : Config) :
    (inv.docVerdicts config).Pairwise fun p q =>
      inv.placeOf p.record.name < inv.placeOf q.record.name := by
  refine List.pairwise_filterMap.mpr (((pairwise_findIdx_firstRecords _).filter _).imp ?_)
  intro f g hlt p hp q hq
  obtain ⟨-, -, rfl⟩ := Option.map_eq_some_iff.mp hp
  obtain ⟨-, -, rfl⟩ := Option.map_eq_some_iff.mp hq
  exact hlt

theorem missing_docVerdicts_iff {name : String} :
    (∃ p ∈ inv.docVerdicts config,
        p.record.name = name ∧ p.violation.kind = .missingDocumentation) ↔
      name ≠ config.entryPoint ∧ (∃ f ∈ inv.functions, f.name = name) ∧
        ∀ f ∈ inv.functions, f.name = name → f.isDocumented = false := by
  rw [exists_mem_docVerdicts_iff]
  refine and_congr_right fun _ => ?_
  constructor
  · rintro ⟨f, hfirst, rfl, v, hv, hkind⟩
    rcases docViolation?_eq_some_iff.mp hv with ⟨hdoc, -⟩ | ⟨-, -, -, rfl⟩
    · exact ⟨⟨f, List.mem_of_find?_eq_some hfirst, rfl⟩, isDocumented_eq_false_iff.mp hdoc⟩
    · cases hkind
  · rintro ⟨⟨g, hg, rfl⟩, hdoc⟩
    obtain ⟨f, hfirst, hname⟩ := exists_function? hg
    rw [← isDocumented_eq_false_iff, ← hname] at hdoc
    exact ⟨f, hfirst, hname, _, docViolation?_eq_some_iff.mpr (.inl ⟨hdoc, rfl⟩), rfl⟩

theorem improper_docVerdicts_iff {name : String} :
    (∃ p ∈ inv.docVerdicts config,
        p.record.name = name ∧ p.violation.kind = .improperDocumentationFormat) ↔
      name ≠ config.entryPoint ∧ config.checkFormat = true ∧
        (∃ f ∈ inv.functions, f.name = name ∧ f.isDocumented = true) ∧
        ∀ f ∈ inv.functions, f.name = name → f.isComplete = false := by
  rw [exists_mem_docVerdicts_iff]
  refine and_congr_right fun _ => ?_
  constructor
  · rintro ⟨f, hfirst, rfl, v, hv, hkind⟩
    rcases docViolation?_eq_some_iff.mp hv with ⟨-, rfl⟩ | ⟨hcheck, hdoc, hcomplete, -⟩
    · cases hkind
    · exact ⟨hcheck, isDocumented_eq_true_iff.mp hdoc, isComplete_eq_false_iff.mp hcomplete⟩
  · rintro ⟨hcheck, ⟨g, hg, rfl, hdocumented⟩, hcomplete⟩
    obtain ⟨f, hfirst, hname⟩ := exists_function? hg
    have hdoc := isDocumented_eq_true_iff.mpr ⟨g, hg, rfl, hdocumented⟩
    rw [← hname] at hdoc
    rw [← isComplete_eq_false_iff, ← hname] at hcomplete
    exact ⟨f, hfirst, hname, _,
      docViolation?_eq_some_iff.mpr (.inr ⟨hcheck, hdoc, hcomplete, rfl⟩), rfl⟩

/-- The check of a file finds what it should find: at most one violation of each name but the
entry point, in the order of the names and at their first records.  It is missing documentation
where no record of the name is documented, and an improper format where some is and none has
complete documentation, if the format is checked. -/
theorem docViolations_isCheckedBy (inv : Inventory) (config : Config) :
    ∃ verdicts : List DocVerdict,
      verdicts.map DocVerdict.violation = inv.docViolations config ∧
        inv.IsCheckedBy config verdicts := by
  refine ⟨inv.docVerdicts config, map_violation_docVerdicts inv config, ?_⟩
  exact {
    inOrder := pairwise_docVerdicts inv config
    isFirst := fun p hp => (mem_docVerdicts_iff.mp hp).1
    ne_entryPoint := fun p hp => (mem_docVerdicts_iff.mp hp).2.1
    violation_eq := fun p hp =>
      (docViolation?_eq_some_iff.mp (mem_docVerdicts_iff.mp hp).2.2).imp And.right
        fun h => h.2.2.2
    missing_iff := fun _ => missing_docVerdicts_iff
    improper_iff := fun _ => improper_docVerdicts_iff }

end Inventory

end HeaderLint
