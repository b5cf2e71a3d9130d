import Mathlib.Data.List.Forall2
import HeaderLint.Proofs.Comparison.Tally
import HeaderLint.Proofs.Signature.Moved

/-!
# Layout, comments and directives

Two sources have the same code if the tokens that carry structure are the same in kind and
text (`Token.SameCode`).  Where these stand, and which comments, directives and line ends stand
between them, is layout.

Layout flows into the places of functions and into their documentation, and nowhere else
(`FunctionRecord.extract_sameCode`): moved to one place, the tokens of both sources are equal, and
`Signature.extract_map_moved` moves the signatures along.  What the comparison decides about two
functions depends on neither, so it reports the same names with the same kinds of findings in the
same order, but for declarations of the header that are undocumented
(`Inventory.compare_sameCode`).
-/

namespace HeaderLint

/-! ## Sources with the same code -/

namespace Token

/-- The tokens that carry structure are the same but for their places. -/
def SameCode (ts us : List Token) : Prop :=
  ((significant ts).map fun t => (t.kind, t.text)) = (significant us).map fun t => (t.kind, t.text)

instance (ts us : List Token) : Decidable (SameCode ts us) :=
  inferInstanceAs (Decidable (_ = _))

/-- Moved to one place, the same code is equal. -/
theorem SameCode.map_moved_eq {ts us : List Token} (h : SameCode ts us) (p : Position) :
    (significant ts).map (moved fun _ => p) = (significant us).map (moved fun _ => p) := by
  have hplaced := congrArg (List.map fun code : TokenKind × String => Token.mk code.1 code.2 p) h
  rw [List.map_map, List.map_map] at hplaced
  exact hplaced

end Token

open Token (SameCode scan)

theorem Signature.map_moved_extract_eq {ts us : List Token} (h : SameCode ts us) (p : Position) :
    (extract ts).map (moved fun _ => p) = (extract us).map (moved fun _ => p) := by
  rw [← extract_map_moved, ← extract_map_moved, extract, extract, Token.significant_map_moved,
    Token.significant_map_moved, h.map_moved_eq]

/-! ## Records with the same interface -/

namespace FunctionRecord

/-- Two records say the same about a function, at any two places and with any
documentation. -/
structure SameInterface (f g : FunctionRecord) : Prop where
  name_eq : g.name = f.name
  returnType_eq : g.returnType = f.returnType
  parameters_eq : g.parameters = f.parameters
  isStatic_eq : g.isStatic = f.isStatic
  isDefinition_eq : g.isDefinition = f.isDefinition

/-- The functions of the same code have the same interfaces, one by one. -/
theorem extract_sameCode {ts us : List Token} (h : SameCode ts us) :
    List.Forall₂ SameInterface (extract ts) (extract us) := by
  have hmoved := Signature.map_moved_extract_eq h .start
  rw [← List.forall₂_eq_eq_eq, List.forall₂_map_left_iff, List.forall₂_map_right_iff] at hmoved
  rw [extract, extract, List.forall₂_map_left_iff, List.forall₂_map_right_iff]
  refine hmoved.imp fun s s' hs => ?_
  rw [Signature.moved, Signature.moved, Signature.mk.injEq] at hs
  obtain ⟨hname, hreturn, hparameters, -, hstatic, hdefinition⟩ := hs
  exact ⟨hname.symm, hreturn.symm, hparameters.symm, hstatic.symm, hdefinition.symm⟩

theorem SameInterface.isEligible_eq {f g : FunctionRecord} (h : SameInterface f g)
    (config : Config) : g.isEligible config = f.isEligible config := by
  rw [isEligible, isEligible, h.isStatic_eq, h.name_eq]

end FunctionRecord

open FunctionRecord (SameInterface)

section
variable {fs gs : List FunctionRecord}

/-- A look-up that sees the interface only finds the same record in both or in none. -/
theorem rel_find?_of_sameInterface (h : List.Forall₂ SameInterface fs gs)
    {p : FunctionRecord → Bool} (hp : ∀ f g, SameInterface f g → p g = p f) :
    Option.Rel SameInterface (fs.find? p) (gs.find? p) := by
  induction h with
  | nil => exact .none
  | @cons f g fs gs hfg _ ih =>
    rw [List.find?_cons, List.find?_cons, hp f g hfg]
    cases p f with
    | true => exact .some hfg
    | false => exact ih

theorem forall₂_filter_of_sameInterface (h : List.Forall₂ SameInterface fs gs)
    {p : FunctionRecord → Bool} (hp : ∀ f g, SameInterface f g → p g = p f) :
    List.Forall₂ SameInterface (fs.filter p) (gs.filter p) := by
  refine List.rel_filter ?_ h
  intro f g hfg
  simp only [hp f g hfg]

theorem forall₂_firstRecords (h : List.Forall₂ SameInterface fs gs) :
    List.Forall₂ SameInterface (firstRecords fs) (firstRecords gs) := by
  induction h with
  | nil => exact .nil
  | @cons f g fs gs hfg _ ih =>
    refine .cons hfg (List.rel_filter ?_ ih)
    intro f' g' hfg'
    simp only [hfg.name_eq, hfg'.name_eq]

end

/-! ## Reports -/

namespace Finding

/-- The name and the kind of a finding. -/
def report (f : Finding) : String × FindingKind := (f.functionName, f.kind)

/-- The finding says that a declaration of the header is undocumented. -/
def isUndocumented (f : Finding) : Bool :=
  f.kind == .docInconsistency && f.implementationLine.isNone

end Finding

open Finding (report isUndocumented)

/-- The names and kinds of findings in order, but for undocumented declarations. -/
def reports (fs : List Finding) : List (String × FindingKind) :=
  (fs.filter fun f => !f.isUndocumented).map report

section
variable {decl decl' defn defn' : FunctionRecord} {config : Config}

theorem map_report_of_pair {fs : List Finding} {kind : FindingKind}
    (h : ∀ f ∈ fs, ∃ description, f = pairFinding decl defn kind description) :
    fs.map report = List.replicate fs.length (defn.name, kind) := by
  rw [List.map_eq_replicate_iff]
  intro f hf
  obtain ⟨description, rfl⟩ := h f hf
  rfl

/-- What is reported of two signatures depends on their interfaces alone, since the numbers of
findings of each kind do. -/
theorem map_report_signatureFindings (hdecl : SameInterface decl decl')
    (hdefn : SameInterface defn defn') :
    (signatureFindings config decl' defn').map report =
      (signatureFindings config decl defn).map report := by
  have hreturn :
      (returnFindings decl' defn').map report = (returnFindings decl defn).map report := by
    rw [map_report_of_pair fun _ => mem_returnFindings,
      map_report_of_pair fun _ => mem_returnFindings, length_returnFindings, length_returnFindings,
      hdecl.returnType_eq, hdefn.returnType_eq, hdefn.name_eq]
  have hparameters : (strictParameterFindings decl' defn').map report =
      (strictParameterFindings decl defn).map report := by
    rw [map_report_of_pair fun _ => mem_strictParameterFindings,
      map_report_of_pair fun _ => mem_strictParameterFindings, length_strictParameterFindings,
      length_strictParameterFindings, differingParameters, differingParameters,
      hdecl.parameters_eq, hdefn.parameters_eq, hdefn.name_eq]
  have hloose : (looseFindings decl' defn').map report = (looseFindings decl defn).map report := by
    rw [map_report_of_pair fun _ => mem_looseFindings,
      map_report_of_pair fun _ => mem_looseFindings, length_looseFindings, length_looseFindings,
      hdecl.returnType_eq, hdecl.parameters_eq, hdefn.returnType_eq, hdefn.parameters_eq,
      hdefn.name_eq]
  rw [signatureFindings, signatureFindings]
  split
  · rw [List.map_append, List.map_append, hreturn, hparameters]
  · exact hloose

end

namespace Inventory

variable {implementation implementation' header header' : Inventory} {config : Config}

/-- The records of two inventories have the same interfaces, one by one. -/
def SameInterfaces (inv inv' : Inventory) : Prop :=
  List.Forall₂ SameInterface inv.functions inv'.functions

theorem SameInterfaces.comparedDefinitions {inv inv' : Inventory} (h : SameInterfaces inv inv') :
    List.Forall₂ SameInterface (inv.comparedDefinitions config)
      (inv'.comparedDefinitions config) := by
  refine forall₂_firstRecords (forall₂_filter_of_sameInterface h ?_)
  intro f g hfg
  rw [hfg.isDefinition_eq, hfg.isEligible_eq]

theorem SameInterfaces.comparedRecords {inv inv' : Inventory} (h : SameInterfaces inv inv') :
    List.Forall₂ SameInterface (inv.comparedRecords config) (inv'.comparedRecords config) :=
  forall₂_firstRecords (forall₂_filter_of_sameInterface h fun _ _ hfg => hfg.isEligible_eq config)

theorem map_report_definitionFindings (hheader : SameInterfaces header header')
    {defn defn' : FunctionRecord} (hdefn : SameInterface defn defn') :
    (header'.definitionFindings config defn').map report =
      (header.definitionFindings config defn).map report := by
  have hdecl : Option.Rel SameInterface (header.function? defn.name)
      (header'.function? defn.name) :=
    rel_find?_of_sameInterface hheader fun f g hfg => by rw [hfg.name_eq]
  rw [definitionFindings, definitionFindings, hdefn.name_eq]
  generalize header.function? defn.name = decl at hdecl ⊢
  generalize header'.function? defn.name = decl' at hdecl ⊢
  cases hdecl with
  | none => rfl
  | some hdecl => exact map_report_signatureFindings hdecl hdefn

theorem map_report_unimplementedFindings
    (himplementation : SameInterfaces implementation implementation')
    {decl decl' : FunctionRecord} (hdecl : SameInterface decl decl') :
    (implementation'.unimplementedFindings decl').map report =
      (implementation.unimplementedFindings decl).map report := by
  have hdefn : Option.Rel SameInterface (implementation.definition? decl.name)
      (implementation'.definition? decl.name) :=
    rel_find?_of_sameInterface himplementation fun f g hfg => by
      rw [hfg.name_eq, hfg.isDefinition_eq]
  rw [unimplementedFindings, unimplementedFindings, hdecl.name_eq, hdecl.isDefinition_eq]
  generalize implementation.definition? decl.name = defn at hdefn ⊢
  generalize implementation'.definition? decl.name = defn' at hdefn ⊢
  cases hdefn <;> cases decl.isDefinition <;> rfl

/-- Without the finding that it is undocumented, a record of the header is left with the finding
that it is not implemented. -/
theorem filter_recordFindings (implementation : Inventory) (decl : FunctionRecord) :
    (implementation.recordFindings decl).filter (fun f => !f.isUndocumented) =
      implementation.unimplementedFindings decl := by
  rw [recordFindings, List.filter_append, undocumentedFindings, unimplementedFindings]
  have hone : ∀ (p : Bool) (f : Finding),
      (if p then [] else [f]).filter (fun f => !f.isUndocumented) =
        if p || f.isUndocumented then [] else [f] := by
    intro p f
    cases p <;> cases h : f.isUndocumented <;> simp [h]
  rw [hone, hone]
  simp [isUndocumented]

/-- What is left of the findings without those about undocumented declarations. -/
theorem filter_not_isUndocumented_compare (implementation header : Inventory) (config : Config) :
    (implementation.compare header config).filter (fun f => !f.isUndocumented) =
      (implementation.comparedDefinitions config).flatMap (header.definitionFindings config) ++
        (header.comparedRecords config).flatMap implementation.unimplementedFindings := by
  rw [compare_eq_append, List.filter_append]
  congr 1
  · rw [List.filter_eq_self]
    intro f hf
    obtain ⟨defn, -, hf⟩ := List.mem_flatMap.mp hf
    rw [isUndocumented, implementationLine_of_mem_definitionFindings hf]
    simp
  · rw [List.filter_flatMap]
    congr 1
    funext decl
    exact filter_recordFindings implementation decl

/-- Related records with the same reports each have the same reports together. -/
theorem map_report_flatMap {fs gs : List FunctionRecord} (h : List.Forall₂ SameInterface fs gs)
    {findings findings' : FunctionRecord → List Finding}
    (hreport : ∀ f g, SameInterface f g → (findings' g).map report = (findings f).map report) :
    (gs.flatMap findings').map report = (fs.flatMap findings).map report := by
  induction h with
  | nil => rfl
  | @cons f g fs gs hfg _ ih =>
    rw [List.flatMap_cons, List.flatMap_cons, List.map_append, List.map_append, hreport f g hfg, ih]

theorem reports_compare_eq (himplementation : SameInterfaces implementation implementation')
    (hheader : SameInterfaces header header') :
    reports (implementation'.compare header' config) =
      reports (implementation.compare header config) := by
  rw [reports, reports, filter_not_isUndocumented_compare, filter_not_isUndocumented_compare,
    List.map_append, List.map_append]
  congr 1
  · exact map_report_flatMap himplementation.comparedDefinitions fun _ _ =>
      map_report_definitionFindings hheader
  · exact map_report_flatMap hheader.comparedRecords fun _ _ =>
      map_report_unimplementedFindings himplementation

/-- Sources with the same code have functions with the same interfaces, and the comparison of two
files reports the same names with the same kinds, in the same order, as the comparison of two
files with the same code. -/
theorem compare_sameCode :
    (∀ source source' : String, SameCode (scan source) (scan source') →
      List.Forall₂ SameInterface (FunctionRecord.extract (scan source))
        (FunctionRecord.extract (scan source'))) ∧
    ∀ (config : Config) (path path' headerPath headerPath' : Path)
      (source source' headerSource headerSource' : String),
      SameCode (scan source) (scan source') → SameCode (scan headerSource) (scan headerSource') →
        reports ((ofSource path' source').compare (ofSource headerPath' headerSource') config) =
          reports ((ofSource path source).compare (ofSource headerPath headerSource) config) := by
  refine ⟨fun source source' => FunctionRecord.extract_sameCode, ?_⟩
  intro config path path' headerPath headerPath' source source' headerSource headerSource' hsource
    hheader
  exact reports_compare_eq (FunctionRecord.extract_sameCode hsource)
    (FunctionRecord.extract_sameCode hheader)

/-- A directive, comments and line ends between the tokens of a definition and of two
declarations. -/
theorem compare_sameCode_commented :
    SameCode (scan "int f(int a) \x7b\x7d\n")
        (scan "#define F\n/* F. */ int\nf (int a) \x7b /* - */ \x7d\n") ∧
      SameCode (scan "int f(void);\nint g(void);\n") (scan "// F\nint f(void);int g(\nvoid);") ∧
      List.Forall₂ SameInterface (FunctionRecord.extract (scan "int f(int a) \x7b\x7d\n"))
        (FunctionRecord.extract
          (scan "#define F\n/* F. */ int\nf (int a) \x7b /* - */ \x7d\n")) ∧
      reports ((ofSource ⟨"src/a.c"⟩
            "#define F\n/* F. */ int\nf (int a) \x7b /* - */ \x7d\n").compare
          (ofSource ⟨"include/a.h"⟩ "// F\nint f(void);int g(\nvoid);") {}) =
        reports ((ofSource ⟨"src/a.c"⟩ "int f(int a) \x7b\x7d\n").compare
          (ofSource ⟨"include/a.h"⟩ "int f(void);\nint g(void);\n") {}) := by
  have hsource : SameCode (scan "int f(int a) \x7b\x7d\n")
      (scan "#define F\n/* F. */ int\nf (int a) \x7b /* - */ \x7d\n") := by decide +kernel
  have hheader : SameCode (scan "int f(void);\nint g(void);\n")
      (scan "// F\nint f(void);int g(\nvoid);") := by decide +kernel
  exact ⟨hsource, hheader, compare_sameCode.1 _ _ hsource,
    compare_sameCode.2 {} _ _ _ _ _ _ _ _ hsource hheader⟩

end Inventory

end HeaderLint
