import Mathlib.Data.List.Forall2
import HeaderLint.Proofs.DocCheck.Missing
import HeaderLint.Report

/-!
# Each setting has its own effect

Three settings bear on what the report of a file says, and none meddles with another.

* The strictness gives the documentation violations their severity, and does nothing else
  (`Violation.graded`).  A stricter setting never makes one less severe.
* Comparing with headers adds violations of its own behind the documentation violations.
* Checking the format adds violations of improper format among the documentation violations.

The documentation violations of a report are those of the documentation check, and no other
violation is one of documentation (`FileSystem.filter_documentation_violations`).  So each
setting is followed through one of the two parts, and the other is the same by computation.
-/

namespace HeaderLint

/-! ## Severities -/

/-- The place of the strictness in the order, least strict first. -/
def Strictness.rank : Strictness → Nat
  | .lenient => 0
  | .standard => 1
  | .strict => 2

theorem Strictness.rank_missingSeverity_le {s s' : Strictness} (h : s.rank ≤ s'.rank) :
    s.missingSeverity.rank ≤ s'.missingSeverity.rank := by
  cases s <;> cases s' <;> revert h <;> decide

theorem Strictness.rank_formatSeverity_le {s s' : Strictness} (h : s.rank ≤ s'.rank) :
    s.formatSeverity.rank ≤ s'.formatSeverity.rank := by
  cases s <;> cases s' <;> revert h <;> decide

namespace Violation

/-- The violation with the severity that the strictness gives it. -/
def graded (s : Strictness) (v : Violation) : Violation :=
  match v.kind with
  | .missingDocumentation => { v with severity := s.missingSeverity }
  | .improperDocumentationFormat => { v with severity := s.formatSeverity }
  | .finding _ => v

/-- The violation is one of documentation. -/
def isDocumentation (v : Violation) : Bool := v.category == .documentation

/-- What a violation under one strictness is under another: the same, but for the severity of a
documentation violation, which is no less under the stricter one. -/
structure IsRegraded (s s' : Strictness) (v w : Violation) : Prop where
  /-- The two differ in nothing but the severity. -/
  eq_of_severity : { v with severity := w.severity } = w
  /-- They differ in the severity only if they are about documentation. -/
  severity_eq : v.isDocumentation = false → v.severity = w.severity
  /-- The stricter setting makes it no less severe. -/
  severity_le : s.rank ≤ s'.rank → v.severity.rank ≤ w.severity.rank

/-- The strictness has no say in findings. -/
theorem graded_of_finding (s : Strictness) {v : Violation} {kind : FindingKind}
    (h : v.kind = .finding kind) : v.graded s = v := by
  rw [graded, h]

theorem isRegraded_graded (s s' : Strictness) {v : Violation}
    (h : v.isDocumentation = false → ∃ kind, v.kind = .finding kind) :
    IsRegraded s s' (v.graded s) (v.graded s') := by
  obtain ⟨kind, severity, category, file, line, message⟩ := v
  cases kind with
  | missingDocumentation =>
    refine ⟨rfl, fun hdoc => ?_, Strictness.rank_missingSeverity_le⟩
    obtain ⟨kind, hkind⟩ := h hdoc
    cases hkind
  | improperDocumentationFormat =>
    refine ⟨rfl, fun hdoc => ?_, Strictness.rank_formatSeverity_le⟩
    obtain ⟨kind, hkind⟩ := h hdoc
    cases hkind
  | finding kind => exact ⟨rfl, fun _ => rfl, fun _ => Nat.le_refl _⟩

end Violation

open Violation (graded isDocumentation IsRegraded)

/-! ## The documentation check -/

namespace Inventory

variable {inv : Inventory} {config : Config}

theorem isDocumentation_of_mem_docViolations {v : Violation} (h : v ∈ inv.docViolations config) :
    v.isDocumentation = true := by
  obtain ⟨f, -, -, hv⟩ := mem_docViolations_iff.mp h
  rcases docViolation?_eq_some_iff.mp hv with ⟨-, rfl⟩ | ⟨-, -, -, rfl⟩
  · rfl
  · rfl

/-- The strictness grades the violations of the check. -/
theorem docViolations_strictness (inv : Inventory) (config : Config) (s : Strictness) :
    inv.docViolations { config with strictness := s } =
      (inv.docViolations config).map (graded s) := by
  rw [docViolations, docViolations, List.map_filterMap]
  congr 1
  funext f
  rw [docViolation?, docViolation?]
  split
  · rfl
  · split
    · rfl
    · rfl

/-- Without the format the check reports what is missing, and nothing else. -/
theorem docViolations_withoutFormat (inv : Inventory) (config : Config) :
    inv.docViolations { config with checkFormat := false } =
      (inv.docViolations { config with checkFormat := true }).filter
        (fun v => v.kind == .missingDocumentation) := by
  rw [docViolations, docViolations, List.filter_filterMap]
  congr 1
  funext f
  rw [docViolation?, docViolation?]
  split
  · rfl
  · simp only [Bool.false_and, Bool.true_and, Bool.false_eq_true, if_false]
    split
    · rfl
    · rfl

end Inventory

/-! ## The two parts of a report -/

namespace FileSystem

variable {fs : FileSystem} {config : Config} {p : Path}

/-- The violations of the documentation check of a file. -/
def checkViolations (fs : FileSystem) (config : Config) (p : Path) : List Violation :=
  match fs.inventory p with
  | .error _ => []
  | .ok i => i.docViolations config

/-- The violations of comparing a file with its header, if it is an implementation. -/
def compareViolations (fs : FileSystem) (config : Config) (p : Path) : List Violation :=
  match fs.inventory p with
  | .error _ => []
  | .ok i =>
    if SourceKind.ofPath? p = some .implementation then fs.headerViolations config i else []

theorem violations_fileReport (fs : FileSystem) (config : Config) (p : Path) :
    (fs.fileReport config p).violations =
      fs.checkViolations config p ++
        if config.crossReference = true then fs.compareViolations config p else [] := by
  rw [fileReport, checkViolations, compareViolations]
  cases fs.inventory p with
  | error e => simp
  | ok i =>
    cases config.crossReference with
    | true => simp
    | false => simp

theorem isDocumentation_of_mem_checkViolations {v : Violation}
    (h : v ∈ fs.checkViolations config p) : v.isDocumentation = true := by
  rw [checkViolations] at h
  split at h
  · cases h
  · exact Inventory.isDocumentation_of_mem_docViolations h

/-- The violations of a comparison are findings, and none is one of documentation. -/
theorem kind_of_mem_compareViolations {v : Violation} (h : v ∈ fs.compareViolations config p) :
    (∃ kind, v.kind = .finding kind) ∧ v.isDocumentation = false := by
  rw [compareViolations] at h
  split at h
  · cases h
  · split at h
    · rw [headerViolations] at h
      split at h
      · obtain ⟨f, -, rfl⟩ := List.mem_map.mp h
        refine ⟨⟨f.kind, rfl⟩, ?_⟩
        change (f.category == .documentation) = false
        rw [Finding.category]
        split <;> rfl
      · cases h
    · cases h

/-- The documentation violations of a report are those of the check, whether the file is compared
or not. -/
theorem filter_isDocumentation_violations (fs : FileSystem) (config : Config) (p : Path) :
    (fs.fileReport config p).violations.filter isDocumentation = fs.checkViolations config p := by
  rw [violations_fileReport, List.filter_append,
    List.filter_eq_self.mpr fun _ => isDocumentation_of_mem_checkViolations,
    List.filter_eq_nil_iff.mpr, List.append_nil]
  intro v hv
  split at hv
  · rw [(kind_of_mem_compareViolations hv).2]
    exact Bool.false_ne_true
  · cases hv

/-- The other violations of a report are those of the comparison. -/
theorem filter_not_isDocumentation_violations (fs : FileSystem) (config : Config) (p : Path) :
    (fs.fileReport config p).violations.filter (fun v => !v.isDocumentation) =
      if config.crossReference = true then fs.compareViolations config p else [] := by
  rw [violations_fileReport, List.filter_append, List.filter_eq_nil_iff.mpr, List.nil_append,
    List.filter_eq_self]
  · intro v hv
    split at hv
    · rw [(kind_of_mem_compareViolations hv).2]
      rfl
    · cases hv
  · intro v hv
    rw [isDocumentation_of_mem_checkViolations hv]
    exact Bool.false_ne_true

theorem kind_of_mem_violations {v : Violation} (h : v ∈ (fs.fileReport config p).violations)
    (hdoc : v.isDocumentation = false) : ∃ kind, v.kind = .finding kind := by
  have hmem : v ∈ (fs.fileReport config p).violations.filter fun v => !v.isDocumentation :=
    List.mem_filter.mpr ⟨h, by rw [hdoc, Bool.not_false]⟩
  rw [filter_not_isDocumentation_violations] at hmem
  split at hmem
  · exact (kind_of_mem_compareViolations hmem).1
  · cases hmem

/-! ## The settings one by one -/

/-- The strictness grades the violations of a report. -/
theorem violations_strictness (fs : FileSystem) (config : Config) (p : Path) (s : Strictness) :
    (fs.fileReport { config with strictness := s } p).violations =
      (fs.fileReport config p).violations.map (graded s) := by
  have hcheck : fs.checkViolations { config with strictness := s } p =
      (fs.checkViolations config p).map (graded s) := by
    rw [checkViolations, checkViolations]
    cases fs.inventory p with
    | error e => rfl
    | ok i => exact i.docViolations_strictness config s
  have hcompare : (fs.compareViolations config p).map (graded s) =
      fs.compareViolations { config with strictness := s } p := by
    refine Eq.trans (List.map_congr_left fun v hv => ?_) (List.map_id _)
    obtain ⟨⟨kind, hkind⟩, -⟩ := kind_of_mem_compareViolations hv
    exact Violation.graded_of_finding s hkind
  rw [violations_fileReport, violations_fileReport, List.map_append, hcheck]
  congr 1
  split
  · exact hcompare.symm
  · rfl

theorem isRegraded_violations (fs : FileSystem) (config : Config) (p : Path) (s s' : Strictness) :
    List.Forall₂ (IsRegraded s s')
      (fs.fileReport { config with strictness := s } p).violations
      (fs.fileReport { config with strictness := s' } p).violations := by
  rw [violations_strictness, violations_strictness fs config p s', List.forall₂_map_left_iff,
    List.forall₂_map_right_iff, List.forall₂_same]
  intro v hv
  exact Violation.isRegraded_graded s s' (kind_of_mem_violations hv)

/-- Without comparing there are the violations of the check. -/
theorem violations_withoutComparing (fs : FileSystem) (config : Config) (p : Path) :
    (fs.fileReport { config with crossReference := false } p).violations =
      fs.checkViolations config p := by
  rw [violations_fileReport]
  exact List.append_nil _

theorem checkViolations_withoutFormat (fs : FileSystem) (config : Config) (p : Path) :
    fs.checkViolations { config with checkFormat := false } p =
      (fs.checkViolations { config with checkFormat := true } p).filter
        (fun v => v.kind == .missingDocumentation) := by
  rw [checkViolations, checkViolations]
  cases fs.inventory p with
  | error e => rfl
  | ok i => exact i.docViolations_withoutFormat config

/-- Missing documentation is found by the check alone. -/
theorem filter_missing_violations (fs : FileSystem) (config : Config) (p : Path) :
    (fs.fileReport config p).violations.filter (fun v => v.kind == .missingDocumentation) =
      (fs.checkViolations config p).filter (fun v => v.kind == .missingDocumentation) := by
  rw [← filter_isDocumentation_violations, List.filter_filter]
  refine List.filter_congr fun v hv => ?_
  cases hdoc : v.isDocumentation with
  | true => rw [Bool.and_true]
  | false =>
    obtain ⟨kind, hkind⟩ := kind_of_mem_violations hv hdoc
    rw [hkind]
    rfl

/-- The settings are independent.

* The strictness changes nothing of a report but the severities of documentation violations, and
  place by place these are no less under a stricter setting.
* Without comparing, the violations are the documentation violations that there are with it, which
  come first there.
* Without the format, the documentation violations are those of missing documentation that there
  are with it, in the same order, and the other violations are the same. -/
theorem fileReport_settings (fs : FileSystem) (config : Config) (p : Path) :
    (∀ s s' : Strictness,
      fs.fileReport { config with strictness := s' } p =
          { fs.fileReport { config with strictness := s } p with
            violations := (fs.fileReport { config with strictness := s' } p).violations } ∧
        List.Forall₂ (IsRegraded s s')
          (fs.fileReport { config with strictness := s } p).violations
          (fs.fileReport { config with strictness := s' } p).violations) ∧
    ((fs.fileReport { config with crossReference := false } p).violations =
        (fs.fileReport { config with crossReference := true } p).violations.filter
          isDocumentation ∧
      (fs.fileReport { config with crossReference := false } p).violations <+:
        (fs.fileReport { config with crossReference := true } p).violations) ∧
    (fs.fileReport { config with checkFormat := false } p).violations.filter isDocumentation =
        (fs.fileReport { config with checkFormat := true } p).violations.filter
          (fun v => v.kind == .missingDocumentation) ∧
      (fs.fileReport { config with checkFormat := false } p).violations.filter
          (fun v => !v.isDocumentation) =
        (fs.fileReport { config with checkFormat := true } p).violations.filter
          (fun v => !v.isDocumentation) := by
  refine ⟨fun s s' => ⟨?_, isRegraded_violations fs config p s s'⟩, ⟨?_, ?_⟩, ?_, ?_⟩
  · rw [fileReport, fileReport]
    cases fs.inventory p <;> rfl
  · rw [violations_withoutComparing, filter_isDocumentation_violations]
    rfl
  · rw [violations_withoutComparing, violations_fileReport]
    exact List.prefix_append _ _
  · rw [filter_isDocumentation_violations, filter_missing_violations,
      checkViolations_withoutFormat]
  · rw [filter_not_isDocumentation_violations, filter_not_isDocumentation_violations]
    rfl

end FileSystem

end HeaderLint
