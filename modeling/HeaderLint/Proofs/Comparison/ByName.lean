import HeaderLint.Comparison

/-!
# The comparison name by name

Every finding carries the name of the record it is about, and of each name the
comparison looks at one record of either file.  So the findings about a name come from
the first eligible definition of that name in the implementation and from its first
eligible record in the header (`Inventory.filter_compare`), whatever other names the
files have.
-/

namespace HeaderLint

/-- The finding is about a name. -/
def Finding.isAbout (name : String) (f : Finding) : Bool := f.functionName == name

/-! ## First records -/

/-- Of the records with a name the first one is kept. -/
theorem filter_firstRecords (fs : List FunctionRecord) (name : String) :
    (firstRecords fs).filter (fun f => f.name == name) =
      (fs.find? fun f => f.name == name).toList := by
  induction fs with
  | nil => rfl
  | cons f fs ih =>
    rw [firstRecords, List.filter_cons, List.find?_cons, List.filter_filter]
    by_cases h : f.name = name
    · rw [beq_iff_eq.mpr h, if_pos rfl]
      apply congrArg (f :: ·)
      rw [List.filter_eq_nil_iff]
      intro g _ hg
      rw [h, Bool.and_eq_true, bne_iff_ne] at hg
      exact hg.2 (beq_iff_eq.mp hg.1)
    · rw [beq_false_of_ne h, ← ih]
      apply List.filter_congr
      intro g _
      cases hg : g.name == name with
      | false => rfl
      | true =>
        rw [beq_iff_eq.mp hg, bne_iff_ne.mpr (Ne.symm h)]
        rfl

theorem filter_firstRecords_of_mem {fs : List FunctionRecord} {f : FunctionRecord}
    (h : f ∈ firstRecords fs) : (firstRecords fs).filter (fun g => g.name == f.name) = [f] := by
  have hmem : f ∈ (firstRecords fs).filter fun g => g.name == f.name :=
    List.mem_filter.mpr ⟨h, beq_self_eq_true f.name⟩
  rw [filter_firstRecords, Option.mem_toList] at hmem
  rw [filter_firstRecords, hmem, Option.toList_some]

/-! ## Names of findings -/

theorem mem_parameterFindings {decl defn : FunctionRecord} {f : Finding} :
    ∀ {index : Nat} {ps qs : List Parameter}, f ∈ parameterFindings decl defn index ps qs →
      ∃ description, f = pairFinding decl defn .parameterMismatch description
  | _, [], _, h => by cases h
  | _, _ :: _, [], h => by cases h
  | index, p :: ps, q :: qs, h => by
    rw [parameterFindings] at h
    split at h
    · exact mem_parameterFindings h
    · rcases List.mem_cons.mp h with rfl | h
      · exact ⟨_, rfl⟩
      · exact mem_parameterFindings h

theorem mem_returnFindings {decl defn : FunctionRecord} {f : Finding}
    (h : f ∈ returnFindings decl defn) :
    ∃ description, f = pairFinding decl defn .returnTypeMismatch description := by
  rw [returnFindings] at h
  split at h
  · exact ⟨_, List.mem_singleton.mp h⟩
  · cases h

theorem mem_strictParameterFindings {decl defn : FunctionRecord} {f : Finding}
    (h : f ∈ strictParameterFindings decl defn) :
    ∃ description, f = pairFinding decl defn .parameterMismatch description := by
  rw [strictParameterFindings] at h
  split at h
  · exact ⟨_, List.mem_singleton.mp h⟩
  · exact mem_parameterFindings h

theorem mem_looseFindings {decl defn : FunctionRecord} {f : Finding}
    (h : f ∈ looseFindings decl defn) :
    ∃ description, f = pairFinding decl defn .signatureMismatch description := by
  rw [looseFindings] at h
  split at h
  · exact ⟨_, List.mem_singleton.mp h⟩
  · cases h

/-- The kinds of findings about two signatures. -/
def signatureKinds : List FindingKind :=
  [.signatureMismatch, .returnTypeMismatch, .parameterMismatch]

/-- Every finding about two signatures is about that pair. -/
theorem mem_signatureFindings {config : Config} {decl defn : FunctionRecord} {f : Finding}
    (h : f ∈ signatureFindings config decl defn) :
    ∃ kind ∈ signatureKinds, ∃ description, f = pairFinding decl defn kind description := by
  rw [signatureFindings] at h
  split at h
  · rcases List.mem_append.mp h with h | h
    · exact ⟨_, by decide, mem_returnFindings h⟩
    · exact ⟨_, by decide, mem_strictParameterFindings h⟩
  · exact ⟨_, by decide, mem_looseFindings h⟩

namespace Inventory

variable {implementation header : Inventory} {config : Config}

theorem kind_of_mem_definitionFindings {defn : FunctionRecord} {f : Finding}
    (h : f ∈ header.definitionFindings config defn) :
    f.kind ∈ FindingKind.missingDeclaration :: signatureKinds := by
  rw [definitionFindings] at h
  split at h
  · obtain ⟨kind, hkind, _, rfl⟩ := mem_signatureFindings h
    exact List.mem_cons_of_mem _ hkind
  · rw [List.mem_singleton.mp h]
    exact List.mem_cons_self

theorem functionName_of_mem_definitionFindings {defn : FunctionRecord} {f : Finding}
    (h : f ∈ header.definitionFindings config defn) : f.functionName = defn.name := by
  rw [definitionFindings] at h
  split at h
  · obtain ⟨_, _, _, rfl⟩ := mem_signatureFindings h
    rfl
  · rw [List.mem_singleton.mp h]

/-- The findings about a record of the header. -/
def recordFindings (implementation : Inventory) (decl : FunctionRecord) : List Finding :=
  undocumentedFindings decl ++ implementation.unimplementedFindings decl

theorem functionName_of_mem_recordFindings {decl : FunctionRecord} {f : Finding}
    (h : f ∈ implementation.recordFindings decl) : f.functionName = decl.name := by
  rcases List.mem_append.mp h with h | h
  · rw [undocumentedFindings] at h
    split at h
    · cases h
    · rw [List.mem_singleton.mp h]
  · rw [unimplementedFindings] at h
    split at h
    · cases h
    · rw [List.mem_singleton.mp h]

/-- Findings about a definition have a line in the implementation. -/
theorem implementationLine_of_mem_definitionFindings {defn : FunctionRecord} {f : Finding}
    (h : f ∈ header.definitionFindings config defn) : f.implementationLine = some defn.line := by
  rw [definitionFindings] at h
  split at h
  · obtain ⟨_, _, _, rfl⟩ := mem_signatureFindings h
    rfl
  · rw [List.mem_singleton.mp h]

/-- Findings about a record of the header have none. -/
theorem implementationLine_of_mem_recordFindings {decl : FunctionRecord} {f : Finding}
    (h : f ∈ implementation.recordFindings decl) : f.implementationLine = none := by
  rcases List.mem_append.mp h with h | h
  · rw [undocumentedFindings] at h
    split at h
    · cases h
    · rw [List.mem_singleton.mp h]
  · rw [unimplementedFindings] at h
    split at h
    · cases h
    · rw [List.mem_singleton.mp h]

end Inventory

/-! ## Findings about a name -/

/-- When findings have the names of their records, those about a name come from the
records with that name. -/
theorem filter_flatMap_findings {findings : FunctionRecord → List Finding}
    (hname : ∀ r, ∀ f ∈ findings r, f.functionName = r.name) (rs : List FunctionRecord)
    (name : String) :
    (rs.flatMap findings).filter (Finding.isAbout name) =
      (rs.filter fun r => r.name == name).flatMap findings := by
  induction rs with
  | nil => rfl
  | cons r rs ih =>
    rw [List.flatMap_cons, List.filter_append, ih, List.filter_cons]
    by_cases h : r.name = name
    · have hall : (findings r).filter (Finding.isAbout name) = findings r := by
        rw [List.filter_eq_self]
        intro f hf
        rw [Finding.isAbout, hname r f hf, beq_iff_eq, h]
      rw [hall, beq_iff_eq.mpr h, if_pos rfl, List.flatMap_cons]
    · have hnone : (findings r).filter (Finding.isAbout name) = [] := by
        rw [List.filter_eq_nil_iff]
        intro f hf
        rw [Finding.isAbout, hname r f hf, beq_iff_eq]
        exact h
      rw [hnone, beq_false_of_ne h]
      rfl

/-- The findings of first records are the same only if those of each record are. -/
theorem flatMap_firstRecords_eq_iff {findings findings' : FunctionRecord → List Finding}
    (hname : ∀ r, ∀ f ∈ findings r, f.functionName = r.name)
    (hname' : ∀ r, ∀ f ∈ findings' r, f.functionName = r.name) (rs : List FunctionRecord) :
    (firstRecords rs).flatMap findings = (firstRecords rs).flatMap findings' ↔
      ∀ r ∈ firstRecords rs, findings r = findings' r := by
  constructor
  · intro h r hr
    have hfilter := congrArg (List.filter (Finding.isAbout r.name)) h
    rwa [filter_flatMap_findings hname, filter_flatMap_findings hname',
      filter_firstRecords_of_mem hr, List.flatMap_singleton, List.flatMap_singleton] at hfilter
  · intro h
    rw [List.flatMap_def, List.flatMap_def, List.map_congr_left h]

namespace Inventory

/-- The first definition with a name that takes part in the comparison. -/
def eligibleDefinition? (inv : Inventory) (config : Config) (name : String) :
    Option FunctionRecord :=
  inv.functions.find? fun f => f.name == name && f.isDefinition && f.isEligible config

/-- The first record with a name that takes part in the comparison. -/
def eligibleRecord? (inv : Inventory) (config : Config) (name : String) : Option FunctionRecord :=
  inv.functions.find? fun f => f.name == name && f.isEligible config

theorem name_of_eligibleDefinition? {inv : Inventory} {name : String} {defn : FunctionRecord}
    (h : inv.eligibleDefinition? config name = some defn) : defn.name = name := by
  have hfound := List.find?_some h
  rw [Bool.and_assoc, Bool.and_eq_true, beq_iff_eq] at hfound
  exact hfound.1

theorem name_of_eligibleRecord? {inv : Inventory} {name : String} {decl : FunctionRecord}
    (h : inv.eligibleRecord? config name = some decl) : decl.name = name := by
  have hfound := List.find?_some h
  rw [Bool.and_eq_true, beq_iff_eq] at hfound
  exact hfound.1

theorem filter_comparedDefinitions (inv : Inventory) (config : Config) (name : String) :
    (inv.comparedDefinitions config).filter (fun f => f.name == name) =
      (inv.eligibleDefinition? config name).toList := by
  rw [comparedDefinitions, filter_firstRecords, List.find?_filter, eligibleDefinition?]
  congr 2
  funext f
  rw [Bool.decide_and, Bool.decide_eq_true, Bool.decide_eq_true, Bool.and_comm, Bool.and_assoc,
    Bool.and_comm f.isDefinition]

theorem filter_comparedRecords (inv : Inventory) (config : Config) (name : String) :
    (inv.comparedRecords config).filter (fun f => f.name == name) =
      (inv.eligibleRecord? config name).toList := by
  rw [comparedRecords, filter_firstRecords, List.find?_filter, eligibleRecord?]
  congr 2
  funext f
  rw [Bool.decide_and, Bool.decide_eq_true, Bool.decide_eq_true, Bool.and_comm]

/-- The findings about a name come from the first definition and from the first header
record of that name that take part. -/
theorem filter_compare (implementation header : Inventory) (config : Config) (name : String) :
    (implementation.compare header config).filter (Finding.isAbout name) =
      (implementation.eligibleDefinition? config name).toList.flatMap
          (header.definitionFindings config) ++
        (header.eligibleRecord? config name).toList.flatMap implementation.recordFindings := by
  rw [compare, List.filter_append,
    filter_flatMap_findings (fun _ _ => functionName_of_mem_definitionFindings),
    filter_comparedDefinitions]
  refine congrArg (_ ++ ·) ?_
  rw [← filter_comparedRecords]
  exact filter_flatMap_findings (fun _ _ => functionName_of_mem_recordFindings) _ name

theorem mem_comparedRecords_iff {inv : Inventory} {config : Config} {decl : FunctionRecord} :
    decl ∈ inv.comparedRecords config ↔ inv.eligibleRecord? config decl.name = some decl := by
  have hfilter : decl ∈ inv.comparedRecords config ↔
      decl ∈ (inv.comparedRecords config).filter fun f => f.name == decl.name := by
    rw [List.mem_filter, beq_self_eq_true]
    simp only [and_true]
  rw [hfilter, filter_comparedRecords, Option.mem_toList]

/-- A finding comes from one of the two records of its name. -/
theorem mem_compare_iff {implementation header : Inventory} {config : Config} {f : Finding} :
    f ∈ implementation.compare header config ↔
      (∃ defn, implementation.eligibleDefinition? config f.functionName = some defn ∧
        f ∈ header.definitionFindings config defn) ∨
      ∃ decl, header.eligibleRecord? config f.functionName = some decl ∧
        f ∈ implementation.recordFindings decl := by
  have hfilter : f ∈ implementation.compare header config ↔
      f ∈ (implementation.compare header config).filter (Finding.isAbout f.functionName) := by
    rw [List.mem_filter, Finding.isAbout, beq_self_eq_true]
    simp only [and_true]
  rw [hfilter, filter_compare, List.mem_append, List.mem_flatMap, List.mem_flatMap]
  simp only [Option.mem_toList]

/-! ## Two comparisons -/

theorem compare_eq_append (implementation header : Inventory) (config : Config) :
    implementation.compare header config =
      (implementation.comparedDefinitions config).flatMap (header.definitionFindings config) ++
        (header.comparedRecords config).flatMap implementation.recordFindings := rfl

/-- The findings with a line in the implementation are those about definitions. -/
theorem filter_implementationLine (implementation header : Inventory) (config : Config)
    (defns decls : List FunctionRecord) :
    (defns.flatMap (header.definitionFindings config) ++
        decls.flatMap implementation.recordFindings).filter
          (fun f => f.implementationLine.isSome) =
      defns.flatMap (header.definitionFindings config) := by
  rw [List.filter_append, List.filter_eq_self.mpr, List.filter_eq_nil_iff.mpr, List.append_nil]
  · intro f hf
    obtain ⟨decl, -, hf⟩ := List.mem_flatMap.mp hf
    rw [implementationLine_of_mem_recordFindings hf]
    exact Bool.false_ne_true
  · intro f hf
    obtain ⟨defn, -, hf⟩ := List.mem_flatMap.mp hf
    rw [implementationLine_of_mem_definitionFindings hf]
    rfl

/-- Two comparisons of the same records are the same if, and only if, every record gives
rise to the same findings in both. -/
theorem compare_eq_compare_iff {implementation implementation' header header' : Inventory}
    {config : Config}
    (hdefinitions :
      implementation'.comparedDefinitions config = implementation.comparedDefinitions config)
    (hrecords : header'.comparedRecords config = header.comparedRecords config) :
    implementation'.compare header' config = implementation.compare header config ↔
      (∀ defn ∈ implementation.comparedDefinitions config,
        header'.definitionFindings config defn = header.definitionFindings config defn) ∧
      ∀ decl ∈ header.comparedRecords config,
        implementation'.recordFindings decl = implementation.recordFindings decl := by
  rw [compare_eq_append, compare_eq_append, hdefinitions, hrecords]
  constructor
  · intro h
    have hlines := congrArg (List.filter fun f => f.implementationLine.isSome) h
    rw [filter_implementationLine, filter_implementationLine] at hlines
    rw [hlines, List.append_cancel_left_eq] at h
    exact ⟨(flatMap_firstRecords_eq_iff (fun _ _ => functionName_of_mem_definitionFindings)
        (fun _ _ => functionName_of_mem_definitionFindings) _).mp hlines,
      (flatMap_firstRecords_eq_iff (fun _ _ => functionName_of_mem_recordFindings)
        (fun _ _ => functionName_of_mem_recordFindings) _).mp h⟩
  · rintro ⟨hdefinition, hrecord⟩
    rw [List.flatMap_def, List.flatMap_def, List.map_congr_left hdefinition,
      List.map_congr_left hrecord]
    rfl

end Inventory

end HeaderLint
