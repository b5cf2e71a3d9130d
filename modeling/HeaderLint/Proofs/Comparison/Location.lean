import HeaderLint.Proofs.Comparison.HeaderSide
import HeaderLint.Proofs.Signature.Walk

/-!
# Where violations point

A violation points at a line of a file, and the function it is about is named on that line.
The place of a record is that of its name (`FunctionRecord.namesOn_of_mem_extract`), so it is
enough to know which record a violation takes its line from.

* The documentation check takes the line of the record that it reports
  (`Inventory.exists_of_mem_docViolations`).
* The comparison takes a line of the implementation from the definition that a finding is about,
  and a line of the header from a record of the same name there (`Finding.IsPlaced`).  A finding
  without the first has the second, so it never points at a line made up for want of both.
-/

namespace HeaderLint

/-- Among the tokens, an identifier with this text starts on this line. -/
def Token.NamesOn (tokens : List Token) (name : String) (line : Nat) : Prop :=
  ∃ t ∈ tokens, t.kind = .identifier ∧ t.text = name ∧ t.line = line

open Token (NamesOn scan)

theorem FunctionRecord.namesOn_of_mem_extract {tokens : List Token} {f : FunctionRecord}
    (h : f ∈ extract tokens) : NamesOn tokens f.name f.line := by
  obtain ⟨s, hs, rfl⟩ := List.mem_map.mp h
  obtain ⟨t, ht, hkind, hname, hplace⟩ := Signature.exists_name_of_mem_extract hs
  exact ⟨t, ht, hkind, hname, congrArg Position.line hplace⟩

/-! ## The documentation check -/

/-- The violation says that the documentation of a function is missing or incomplete. -/
def Violation.IsAboutDocOf (v : Violation) (f : FunctionRecord) : Prop :=
  v.kind = .missingDocumentation ∧ v.message = f.missingMessage ∨
    v.kind = .improperDocumentationFormat ∧ v.message = f.formatMessage

namespace Inventory

/-- A documentation violation is about some record of the file, and points at it. -/
theorem exists_of_mem_docViolations {inv : Inventory} {config : Config} {v : Violation}
    (h : v ∈ inv.docViolations config) :
    ∃ f ∈ inv.functions, v.file = inv.path ∧ v.line = f.line ∧ v.IsAboutDocOf f := by
  obtain ⟨f, hfirst, -, hv⟩ := mem_docViolations_iff.mp h
  refine ⟨f, List.mem_of_find?_eq_some hfirst, ?_⟩
  rcases docViolation?_eq_some_iff.mp hv with ⟨-, rfl⟩ | ⟨-, -, -, rfl⟩
  · exact ⟨rfl, rfl, .inl ⟨rfl, rfl⟩⟩
  · exact ⟨rfl, rfl, .inr ⟨rfl, rfl⟩⟩

end Inventory

/-! ## The comparison -/

/-- The inventory has a record with this name on this line. -/
def Inventory.HasRecordOn (inv : Inventory) (name : String) (line : Nat) : Prop :=
  ∃ f ∈ inv.functions, f.name = name ∧ f.line = line

/-- The lines of a finding are lines of records of its name in the two files, and it has one of
the two. -/
structure Finding.IsPlaced (implementation header : Inventory) (f : Finding) : Prop where
  /-- The line in the implementation is that of a record there. -/
  inImplementation : ∀ line, f.implementationLine = some line →
    implementation.HasRecordOn f.functionName line
  /-- The line in the header is that of a record there. -/
  inHeader : ∀ line, f.headerLine = some line → header.HasRecordOn f.functionName line
  /-- Without a line in the implementation there is one in the header. -/
  isSome_headerLine : f.implementationLine = none → f.headerLine.isSome = true

namespace Inventory

variable {implementation header : Inventory} {config : Config}

theorem hasRecordOn_of_find? {inv : Inventory} {p : FunctionRecord → Bool} {f : FunctionRecord}
    (h : inv.functions.find? p = some f) : inv.HasRecordOn f.name f.line :=
  ⟨f, List.mem_of_find?_eq_some h, rfl, rfl⟩

theorem isPlaced_of_mem_definitionFindings {defn : FunctionRecord} {f : Finding}
    (hdefn : implementation.HasRecordOn defn.name defn.line)
    (h : f ∈ header.definitionFindings config defn) : f.IsPlaced implementation header := by
  rw [definitionFindings] at h
  split at h
  · next decl hdecl =>
    obtain ⟨kind, -, description, rfl⟩ := mem_signatureFindings h
    rw [function?] at hdecl
    have hname : decl.name = defn.name := by simpa using List.find?_some hdecl
    have hrecord := hasRecordOn_of_find? hdecl
    rw [hname] at hrecord
    refine ⟨fun line hline => ?_, fun line hline => ?_, fun hline => ?_⟩
    · cases hline
      exact hdefn
    · cases hline
      exact hrecord
    · cases hline
  · obtain rfl := List.mem_singleton.mp h
    refine ⟨fun line hline => ?_, fun line hline => ?_, fun hline => ?_⟩
    · cases hline
      exact hdefn
    · cases hline
    · cases hline

theorem isPlaced_of_mem_recordFindings {decl : FunctionRecord} {f : Finding}
    (hdecl : header.HasRecordOn decl.name decl.line)
    (h : f ∈ implementation.recordFindings decl) : f.IsPlaced implementation header := by
  rcases mem_recordFindings_iff.mp h with ⟨-, rfl⟩ | ⟨-, rfl⟩
  all_goals
    refine ⟨nofun, ?_, fun _ => rfl⟩
    rintro _ ⟨⟩
    exact hdecl

theorem isPlaced_of_mem_compare {f : Finding} (h : f ∈ implementation.compare header config) :
    f.IsPlaced implementation header := by
  rcases mem_compare_iff.mp h with ⟨defn, hdefn, h⟩ | ⟨decl, hdecl, h⟩
  · exact isPlaced_of_mem_definitionFindings (hasRecordOn_of_find? hdefn) h
  · exact isPlaced_of_mem_recordFindings (hasRecordOn_of_find? hdecl) h

end Inventory

/-! ## Sources -/

/-- The violation points into a source text at a line that names a function. -/
def Violation.PointsTo (v : Violation) (path : Path) (source name : String) : Prop :=
  v.file = path ∧ NamesOn (scan source) name v.line

namespace Inventory

theorem HasRecordOn.namesOn {path : Path} {source name : String} {line : Nat}
    (h : (ofSource path source).HasRecordOn name line) : NamesOn (scan source) name line := by
  obtain ⟨f, hf, rfl, rfl⟩ := h
  exact FunctionRecord.namesOn_of_mem_extract hf

/-- A placed finding points at the implementation if it has a line there, and else at its line
in the header. -/
theorem location_of_isPlaced {path headerPath : Path} {source headerSource : String} {f : Finding}
    (h : f.IsPlaced (ofSource path source) (ofSource headerPath headerSource)) :
    (f.implementationLine.isSome = true ∧
        (f.toViolation path headerPath).PointsTo path source f.functionName) ∨
      (some (f.toViolation path headerPath).line = f.headerLine ∧
        (f.toViolation path headerPath).PointsTo headerPath headerSource f.functionName) := by
  obtain ⟨name, kind, headerLine, implementationLine, description⟩ := f
  cases implementationLine with
  | some line => exact .inl ⟨rfl, rfl, (h.inImplementation line rfl).namesOn⟩
  | none =>
    obtain ⟨line, hline⟩ := Option.isSome_iff_exists.mp (h.isSome_headerLine rfl)
    obtain rfl : headerLine = some line := hline
    exact .inr ⟨rfl, rfl, (h.inHeader line rfl).namesOn⟩

/-- Every violation points at a line that names the function it is about: a violation of the
documentation check in its file, and a violation of the comparison in one of the two files.
Every finding of the comparison without a line in the implementation has one in the header and
points there. -/
theorem violations_pointTo (config : Config) :
    (∀ (path : Path) (source : String), ∀ v ∈ (ofSource path source).docViolations config,
      ∃ f ∈ (ofSource path source).functions,
        v.IsAboutDocOf f ∧ v.PointsTo path source f.name) ∧
    ∀ (path headerPath : Path) (source headerSource : String),
      (∀ v ∈ Finding.toViolations
          ((ofSource path source).compare (ofSource headerPath headerSource) config)
          path headerPath,
        ∃ f ∈ (ofSource path source).compare (ofSource headerPath headerSource) config,
          f.toViolation path headerPath = v ∧
          (v.PointsTo path source f.functionName ∨
            v.PointsTo headerPath headerSource f.functionName)) ∧
      ∀ f ∈ (ofSource path source).compare (ofSource headerPath headerSource) config,
        f.implementationLine = none →
          some (f.toViolation path headerPath).line = f.headerLine ∧
          (f.toViolation path headerPath).PointsTo headerPath headerSource f.functionName := by
  constructor
  · intro path source v hv
    obtain ⟨f, hf, hfile, hline, habout⟩ := exists_of_mem_docViolations hv
    refine ⟨f, hf, habout, hfile, ?_⟩
    rw [hline]
    exact FunctionRecord.namesOn_of_mem_extract hf
  · intro path headerPath source headerSource
    refine ⟨fun v hv => ?_, fun f hf hnone => ?_⟩
    · obtain ⟨f, hf, rfl⟩ := List.mem_map.mp hv
      refine ⟨f, hf, rfl, ?_⟩
      rcases location_of_isPlaced (isPlaced_of_mem_compare hf) with ⟨-, hpoints⟩ | ⟨-, hpoints⟩
      · exact .inl hpoints
      · exact .inr hpoints
    · rcases location_of_isPlaced (isPlaced_of_mem_compare hf) with ⟨hsome, -⟩ | hheader
      · rw [hnone] at hsome
        cases hsome
      · exact hheader

/-- The definition of `g` without documentation stands on the second line of its file, and the
declaration of `f` without an implementation on the fourth line of the header. -/
theorem violations_pointTo_fourth :
    (⟨.missingDocumentation, .error, .documentation, ⟨"src/a.c"⟩, 2,
        "function 'g' has no documentation"⟩ ∈
      (ofSource ⟨"src/a.c"⟩ "\nint g(int a) \x7b\x7d\n").docViolations {}) ∧
    (∃ f ∈ (ofSource ⟨"src/a.c"⟩ "\nint g(int a) \x7b\x7d\n").functions,
      Violation.IsAboutDocOf ⟨.missingDocumentation, .error, .documentation, ⟨"src/a.c"⟩, 2,
          "function 'g' has no documentation"⟩ f ∧
        Violation.PointsTo ⟨.missingDocumentation, .error, .documentation, ⟨"src/a.c"⟩, 2,
          "function 'g' has no documentation"⟩ ⟨"src/a.c"⟩ "\nint g(int a) \x7b\x7d\n" f.name) ∧
    (⟨.finding .missingImplementation, .warning, .header, ⟨"include/a.h"⟩, 4,
        "'f' is declared but not implemented in src/a.c"⟩ ∈
      Finding.toViolations
        ((ofSource ⟨"src/a.c"⟩ "\nint g(int a) \x7b\x7d\n").compare
          (ofSource ⟨"include/a.h"⟩ "// G.\nint g(void);\n\nint f(void);\n") {})
        ⟨"src/a.c"⟩ ⟨"include/a.h"⟩) ∧
    (∃ f ∈ (ofSource ⟨"src/a.c"⟩ "\nint g(int a) \x7b\x7d\n").compare
        (ofSource ⟨"include/a.h"⟩ "// G.\nint g(void);\n\nint f(void);\n") {},
      f.toViolation ⟨"src/a.c"⟩ ⟨"include/a.h"⟩ =
        ⟨.finding .missingImplementation, .warning, .header, ⟨"include/a.h"⟩, 4,
          "'f' is declared but not implemented in src/a.c"⟩ ∧
      (Violation.PointsTo ⟨.finding .missingImplementation, .warning, .header, ⟨"include/a.h"⟩, 4,
            "'f' is declared but not implemented in src/a.c"⟩ ⟨"src/a.c"⟩
          "\nint g(int a) \x7b\x7d\n" f.functionName ∨
        Violation.PointsTo ⟨.finding .missingImplementation, .warning, .header, ⟨"include/a.h"⟩, 4,
            "'f' is declared but not implemented in src/a.c"⟩ ⟨"include/a.h"⟩
          "// G.\nint g(void);\n\nint f(void);\n" f.functionName)) ∧
    (⟨"f", .missingImplementation, some 4, none,
        "'f' is declared but not implemented in src/a.c"⟩ ∈
      (ofSource ⟨"src/a.c"⟩ "\nint g(int a) \x7b\x7d\n").compare
        (ofSource ⟨"include/a.h"⟩ "// G.\nint g(void);\n\nint f(void);\n") {}) ∧
    Violation.PointsTo ⟨.finding .missingImplementation, .warning, .header, ⟨"include/a.h"⟩, 4,
        "'f' is declared but not implemented in src/a.c"⟩ ⟨"include/a.h"⟩
      "// G.\nint g(void);\n\nint f(void);\n" "f" := by
  have hmissing : ⟨.missingDocumentation, .error, .documentation, ⟨"src/a.c"⟩, 2,
        "function 'g' has no documentation"⟩ ∈
      (ofSource ⟨"src/a.c"⟩ "\nint g(int a) \x7b\x7d\n").docViolations {} := by
    decide +kernel
  have hunimplemented : ⟨.finding .missingImplementation, .warning, .header, ⟨"include/a.h"⟩, 4,
        "'f' is declared but not implemented in src/a.c"⟩ ∈
      Finding.toViolations
        ((ofSource ⟨"src/a.c"⟩ "\nint g(int a) \x7b\x7d\n").compare
          (ofSource ⟨"include/a.h"⟩ "// G.\nint g(void);\n\nint f(void);\n") {})
        ⟨"src/a.c"⟩ ⟨"include/a.h"⟩ := by decide +kernel
  have hfinding : ⟨"f", .missingImplementation, some 4, none,
        "'f' is declared but not implemented in src/a.c"⟩ ∈
      (ofSource ⟨"src/a.c"⟩ "\nint g(int a) \x7b\x7d\n").compare
        (ofSource ⟨"include/a.h"⟩ "// G.\nint g(void);\n\nint f(void);\n") {} := by
    decide +kernel
  obtain ⟨hviolations, hfindings⟩ := (violations_pointTo {}).2 ⟨"src/a.c"⟩ ⟨"include/a.h"⟩
    "\nint g(int a) \x7b\x7d\n" "// G.\nint g(void);\n\nint f(void);\n"
  exact ⟨hmissing, (violations_pointTo {}).1 _ _ _ hmissing, hunimplemented,
    hviolations _ hunimplemented, hfinding, (hfindings _ hfinding rfl).2⟩

end Inventory

end HeaderLint
