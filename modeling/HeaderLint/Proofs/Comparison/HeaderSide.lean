import HeaderLint.Proofs.DocCheck.Missing

/-!
# Findings about the header alone

Two kinds of findings concern the header alone: that a declaration is not implemented, and
that it is undocumented.  The comparison decides both at the first record of the name in
the header that takes part.

* A declaration counts as not implemented if the implementation has no definition of the
  name.  The header's own definition counts only if it is that first record
  (`Inventory.reportsUnimplemented_iff`).
* A declaration counts as undocumented if that first record is
  (`Inventory.reportsUndocumented_iff`).  The documentation check is content with any
  record of the name that is documented.
-/

namespace HeaderLint

namespace Inventory

variable {implementation header : Inventory} {config : Config} {name : String}

theorem mem_recordFindings_iff {decl : FunctionRecord} {f : Finding} :
    f ∈ implementation.recordFindings decl ↔
      (decl.isDocumented = false ∧ f = ⟨decl.name, .docInconsistency, some decl.line, none,
        "header declaration of '" ++ decl.name ++ "' is undocumented"⟩) ∨
      ((decl.isDefinition = false ∧ implementation.definition? decl.name = none) ∧
        f = ⟨decl.name, .missingImplementation, some decl.line, none, "'" ++ decl.name ++
          "' is declared but not implemented in " ++ implementation.path.text⟩) := by
  rw [recordFindings, List.mem_append, undocumentedFindings, unimplementedFindings]
  cases decl.isDocumented <;> cases decl.isDefinition <;>
    cases implementation.definition? decl.name <;> simp

/-! ## Declarations without an implementation -/

/-- Some record of the name is a definition. -/
def Defines (inv : Inventory) (name : String) : Prop :=
  ∃ f ∈ inv.functions, f.name = name ∧ f.isDefinition = true

instance (inv : Inventory) (name : String) : Decidable (inv.Defines name) :=
  inferInstanceAs (Decidable (∃ f ∈ inv.functions, _ ∧ _))

theorem definition?_eq_none_iff {inv : Inventory} :
    inv.definition? name = none ↔ ¬inv.Defines name := by
  simp [definition?, Defines]

/-- The comparison reports that a name is declared but not implemented. -/
def ReportsUnimplemented (implementation header : Inventory) (config : Config)
    (name : String) : Prop :=
  ∃ f ∈ implementation.compare header config,
    f.functionName = name ∧ f.kind = .missingImplementation

instance (implementation header : Inventory) (config : Config) (name : String) :
    Decidable (ReportsUnimplemented implementation header config name) :=
  inferInstanceAs (Decidable (∃ f ∈ implementation.compare header config, _ ∧ _))

theorem reportsUnimplemented_iff :
    ReportsUnimplemented implementation header config name ↔
      ¬implementation.Defines name ∧
        ∃ decl, header.eligibleRecord? config name = some decl ∧ decl.isDefinition = false := by
  constructor
  · rintro ⟨f, hf, rfl, hkind⟩
    rcases mem_compare_iff.mp hf with ⟨defn, -, hdefn⟩ | ⟨decl, hdecl, hrecord⟩
    · have hmem := kind_of_mem_definitionFindings hdefn
      rw [hkind] at hmem
      exact absurd hmem (by decide)
    · rcases mem_recordFindings_iff.mp hrecord with ⟨-, rfl⟩ | ⟨⟨hdefinition, hnone⟩, rfl⟩
      · cases hkind
      · exact ⟨definition?_eq_none_iff.mp hnone, decl, hdecl, hdefinition⟩
  · rintro ⟨hnone, decl, hdecl, hdefinition⟩
    obtain rfl := name_of_eligibleRecord? hdecl
    refine ⟨_, mem_compare_iff.mpr (Or.inr ⟨decl, hdecl, mem_recordFindings_iff.mpr
      (Or.inr ⟨⟨hdefinition, definition?_eq_none_iff.mpr hnone⟩, rfl⟩)⟩), rfl, rfl⟩

/-- Where the comparison reports a name as not implemented, the implementation has no
definition of it.  Nor has the header, if, and only if, the implementation has a definition
of every name that the header both declares first and defines. -/
theorem reportsUnimplemented_sound_iff (implementation header : Inventory) (config : Config) :
    (∀ name, ReportsUnimplemented implementation header config name →
      ¬implementation.Defines name) ∧
    ((∀ name, ReportsUnimplemented implementation header config name → ¬header.Defines name) ↔
      ∀ decl ∈ header.comparedRecords config, decl.isDefinition = false →
        header.Defines decl.name → implementation.Defines decl.name) := by
  refine ⟨fun name h => (reportsUnimplemented_iff.mp h).1, ?_⟩
  constructor
  · intro h decl hdecl hdefinition hheader
    refine Decidable.byContradiction fun hnone => ?_
    refine h decl.name (reportsUnimplemented_iff.mpr ⟨hnone, decl, ?_, hdefinition⟩) hheader
    exact mem_comparedRecords_iff.mp hdecl
  · intro h name hreport hheader
    obtain ⟨hnone, decl, hdecl, hdefinition⟩ := reportsUnimplemented_iff.mp hreport
    obtain rfl := name_of_eligibleRecord? hdecl
    exact hnone (h decl (mem_comparedRecords_iff.mpr hdecl) hdefinition hheader)

/-- A function that the header declares and then defines is reported as not implemented. -/
theorem reportsUnimplemented_inline :
    ReportsUnimplemented (ofSource ⟨"src/a.c"⟩ "")
        (ofSource ⟨"include/a.h"⟩
          "/* F. */\nint f(void);\ninline int f(void) \x7b return 0; \x7d\n") {} "f" ∧
      (ofSource ⟨"include/a.h"⟩
        "/* F. */\nint f(void);\ninline int f(void) \x7b return 0; \x7d\n").Defines "f" := by
  decide +kernel

/-! ## Declarations without documentation -/

/-- The comparison reports that the declaration of a name in the header is undocumented. -/
def ReportsUndocumented (implementation header : Inventory) (config : Config)
    (name : String) : Prop :=
  ∃ f ∈ implementation.compare header config,
    (f.functionName = name ∧ f.kind = .docInconsistency ∧ f.implementationLine = none) ∧
      f.description = "header declaration of '" ++ name ++ "' is undocumented"

instance (implementation header : Inventory) (config : Config) (name : String) :
    Decidable (ReportsUndocumented implementation header config name) :=
  inferInstanceAs (Decidable (∃ f ∈ implementation.compare header config, _ ∧ _))

theorem reportsUndocumented_iff :
    ReportsUndocumented implementation header config name ↔
      ∃ decl, header.eligibleRecord? config name = some decl ∧ decl.isDocumented = false := by
  constructor
  · rintro ⟨f, hf, ⟨rfl, hkind, -⟩, -⟩
    rcases mem_compare_iff.mp hf with ⟨defn, -, hdefn⟩ | ⟨decl, hdecl, hrecord⟩
    · have hmem := kind_of_mem_definitionFindings hdefn
      rw [hkind] at hmem
      exact absurd hmem (by decide)
    · rcases mem_recordFindings_iff.mp hrecord with ⟨hdocumented, rfl⟩ | ⟨-, rfl⟩
      · exact ⟨decl, hdecl, hdocumented⟩
      · cases hkind
  · rintro ⟨decl, hdecl, hdocumented⟩
    obtain rfl := name_of_eligibleRecord? hdecl
    refine ⟨_, mem_compare_iff.mpr (Or.inr ⟨decl, hdecl, mem_recordFindings_iff.mpr
      (Or.inl ⟨hdocumented, rfl⟩)⟩), ⟨rfl, rfl, rfl⟩, rfl⟩

theorem ne_entryPoint_of_isEligible {f : FunctionRecord} (h : f.isEligible config = true) :
    f.name ≠ config.entryPoint := by
  rw [FunctionRecord.isEligible, Config.isExempt] at h
  intro hentry
  simp [hentry] at h

/-- The documentation check reports a name as missing documentation if, and only if, the
comparison reports its declaration as undocumented and no other record of the name is
documented. -/
theorem reportsMissing_iff_reportsUndocumented (implementation header : Inventory)
    (config : Config) (name : String)
    (h : ∃ f ∈ header.functions, f.name = name ∧ f.isEligible config = true) :
    header.ReportsMissing config name ↔
      ReportsUndocumented implementation header config name ∧
        ∀ f ∈ header.functions, f.name = name →
          header.eligibleRecord? config name ≠ some f → f.isDocumented = false := by
  obtain ⟨g, hg, rfl, heligible⟩ := h
  obtain ⟨decl, hdecl⟩ : ∃ decl, header.eligibleRecord? config g.name = some decl := by
    refine Option.isSome_iff_exists.mp (List.find?_isSome.mpr ⟨g, hg, ?_⟩)
    rw [heligible, beq_self_eq_true, Bool.and_self]
  have hundocumented : header.isDocumented g.name = false ↔
      ∀ f ∈ header.functions, f.name = g.name → f.isDocumented = false := by
    simp [isDocumented]
  rw [reportsMissing_iff, reportsUndocumented_iff, hundocumented, hdecl]
  constructor
  · rintro ⟨-, hnone, -⟩
    refine ⟨⟨decl, rfl, ?_⟩, fun f hf hname _ => hnone f hf hname⟩
    exact hnone decl (List.mem_of_find?_eq_some hdecl) (name_of_eligibleRecord? hdecl)
  · rintro ⟨⟨first, hfirst, hdocumented⟩, hothers⟩
    obtain rfl := Option.some.inj hfirst
    refine ⟨ne_entryPoint_of_isEligible heligible, ?_, g, hg, rfl⟩
    intro f hf hname
    by_cases hsame : some decl = some f
    · obtain rfl := Option.some.inj hsame
      exact hdocumented
    · exact hothers f hf hname hsame

/-- Of two declarations without documentation both checks complain. -/
theorem reportsMissing_iff_reportsUndocumented_twice :
    (∃ f ∈ (ofSource ⟨"include/a.h"⟩ "int f(void);\nint f(void);\n").functions,
      f.name = "f" ∧ f.isEligible {} = true) ∧
    ((ofSource ⟨"include/a.h"⟩ "int f(void);\nint f(void);\n").ReportsMissing {} "f" ↔
      ReportsUndocumented (ofSource ⟨"src/a.c"⟩ "")
          (ofSource ⟨"include/a.h"⟩ "int f(void);\nint f(void);\n") {} "f" ∧
        ∀ f ∈ (ofSource ⟨"include/a.h"⟩ "int f(void);\nint f(void);\n").functions, f.name = "f" →
          (ofSource ⟨"include/a.h"⟩ "int f(void);\nint f(void);\n").eligibleRecord? {} "f" ≠
            some f → f.isDocumented = false) := by
  have h : ∃ f ∈ (ofSource ⟨"include/a.h"⟩ "int f(void);\nint f(void);\n").functions,
      f.name = "f" ∧ f.isEligible {} = true := by decide +kernel
  exact ⟨h, reportsMissing_iff_reportsUndocumented _ _ {} "f" h⟩

/-- A comment on the second declaration does for the documentation check, but not for the
comparison. -/
theorem reportsUndocumented_second :
    (∃ f ∈ (ofSource ⟨"include/a.h"⟩ "int f(void);\n/* F. */\nint f(void);\n").functions,
      f.name = "f" ∧ f.isEligible {} = true) ∧
    ReportsUndocumented (ofSource ⟨"src/a.c"⟩ "int f(void) \x7b return 0; \x7d\n")
      (ofSource ⟨"include/a.h"⟩ "int f(void);\n/* F. */\nint f(void);\n") {} "f" ∧
    ¬(ofSource ⟨"include/a.h"⟩ "int f(void);\n/* F. */\nint f(void);\n").ReportsMissing {} "f" := by
  rw [reportsMissing_iff]
  decide +kernel

end Inventory

end HeaderLint
