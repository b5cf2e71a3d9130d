import HeaderLint.Proofs.Comparison.ByName

/-!
# How many findings there are

For every name and every kind of finding the number of findings is determined by three
records: the first eligible definition of the name in the implementation, the first
record of the name in the header, and the first eligible record of the name in the
header.

* Findings with a line in the implementation come from the definition
  (`definitionTally`).
* Findings without come from the eligible header record (`recordTally`).

`Inventory.tally_compare` says so for every pair of inventories.  The two numbers
differ from zero and one only for the types of single parameters.
-/

namespace HeaderLint

/-! ## Counting -/

/-- The finding has a kind, and it has a line in the implementation or none. -/
def Finding.isOf (kind : FindingKind) (inImplementation : Bool) (f : Finding) : Bool :=
  f.kind == kind && f.implementationLine.isSome == inImplementation

/-- The number of findings about a name of a kind, with a line in the implementation or
without. -/
def tally (name : String) (kind : FindingKind) (inImplementation : Bool) (fs : List Finding) :
    Nat :=
  fs.countP fun f => f.isAbout name && f.isOf kind inImplementation

/-- The number of parameters, place by place, whose types differ. -/
def differingParameters (decl defn : FunctionRecord) : Nat :=
  (decl.parameters.zip defn.parameters).countP fun (p, q) =>
    normalizeType p.type != normalizeType q.type

/-- The number of findings of a kind about a definition, given the record of its name in
the header. -/
def definitionTally (config : Config) (decl? : Option FunctionRecord) (defn : FunctionRecord)
    (kind : FindingKind) : Nat :=
  match decl?, kind with
  | none, .missingDeclaration => 1
  | some decl, .signatureMismatch =>
    if config.strictSignatures = false ∧
        (normalizeType decl.returnType ≠ normalizeType defn.returnType ∨
          decl.parameters.length ≠ defn.parameters.length) then 1
    else 0
  | some decl, .returnTypeMismatch =>
    if config.strictSignatures = true ∧
        normalizeType decl.returnType ≠ normalizeType defn.returnType then 1
    else 0
  | some decl, .parameterMismatch =>
    if config.strictSignatures = false then 0
    else if decl.parameters.length ≠ defn.parameters.length then 1
    else differingParameters decl defn
  | _, _ => 0

/-- The number of findings of a kind about a record of the header. -/
def recordTally (implementation : Inventory) (decl : FunctionRecord) (kind : FindingKind) : Nat :=
  match kind with
  | .docInconsistency => if decl.documentation = none then 1 else 0
  | .missingImplementation =>
    if decl.isDefinition = false ∧ implementation.definition? decl.name = none then 1 else 0
  | _ => 0

/-! ## Two signatures -/

section
variable {decl defn : FunctionRecord} {kind : FindingKind} {inImplementation : Bool}

/-- Findings about a pair, all of one kind, count for that kind and with a line in the
implementation. -/
theorem countP_isOf_of_pair {fs : List Finding} {k : FindingKind}
    (h : ∀ f ∈ fs, ∃ description, f = pairFinding decl defn k description) :
    fs.countP (Finding.isOf kind inImplementation) =
      if k = kind ∧ inImplementation = true then fs.length else 0 := by
  split
  · next hk =>
    rw [List.countP_eq_length]
    intro f hf
    obtain ⟨description, rfl⟩ := h f hf
    simp [Finding.isOf, pairFinding, hk]
  · next hk =>
    rw [List.countP_eq_zero]
    intro f hf
    obtain ⟨description, rfl⟩ := h f hf
    simpa [Finding.isOf, pairFinding] using hk

theorem length_parameterFindings (index : Nat) (ps qs : List Parameter) :
    (parameterFindings decl defn index ps qs).length =
      (ps.zip qs).countP fun (p, q) => normalizeType p.type != normalizeType q.type := by
  induction ps generalizing index qs with
  | nil => rfl
  | cons p ps ih =>
    cases qs with
    | nil => rfl
    | cons q qs =>
      rw [parameterFindings, List.zip_cons_cons, List.countP_cons, ← ih (index + 1)]
      by_cases h : normalizeType p.type = normalizeType q.type
      · simp [h]
      · simp [h]

theorem returnDiffers_iff :
    returnDiffers decl defn = true ↔
      normalizeType decl.returnType ≠ normalizeType defn.returnType :=
  bne_iff_ne

theorem countDiffers_iff :
    countDiffers decl defn = true ↔ decl.parameters.length ≠ defn.parameters.length :=
  bne_iff_ne

theorem length_returnFindings (decl defn : FunctionRecord) :
    (returnFindings decl defn).length =
      if normalizeType decl.returnType ≠ normalizeType defn.returnType then 1 else 0 := by
  simp only [returnFindings, returnDiffers_iff]
  split <;> rfl

theorem length_strictParameterFindings (decl defn : FunctionRecord) :
    (strictParameterFindings decl defn).length =
      if decl.parameters.length ≠ defn.parameters.length then 1
      else differingParameters decl defn := by
  simp only [strictParameterFindings, countDiffers_iff]
  split
  · rfl
  · exact length_parameterFindings 0 decl.parameters defn.parameters

theorem length_looseFindings (decl defn : FunctionRecord) :
    (looseFindings decl defn).length =
      if normalizeType decl.returnType ≠ normalizeType defn.returnType ∨
          decl.parameters.length ≠ defn.parameters.length then 1
      else 0 := by
  simp only [looseFindings, Bool.or_eq_true, returnDiffers_iff, countDiffers_iff]
  split <;> rfl

theorem countP_signatureFindings (config : Config) (decl defn : FunctionRecord)
    (kind : FindingKind) :
    (signatureFindings config decl defn).countP (Finding.isOf kind true) =
      definitionTally config (some decl) defn kind := by
  rw [signatureFindings]
  cases hstrict : config.strictSignatures with
  | true =>
    rw [if_pos rfl, List.countP_append, countP_isOf_of_pair fun _ => mem_returnFindings,
      countP_isOf_of_pair fun _ => mem_strictParameterFindings, length_returnFindings,
      length_strictParameterFindings]
    cases kind <;> simp [definitionTally, hstrict]
  | false =>
    rw [if_neg Bool.false_ne_true, countP_isOf_of_pair fun _ => mem_looseFindings,
      length_looseFindings]
    cases kind <;> simp [definitionTally, hstrict]

theorem countP_signatureFindings_header (config : Config) (decl defn : FunctionRecord)
    (kind : FindingKind) :
    (signatureFindings config decl defn).countP (Finding.isOf kind false) = 0 := by
  rw [List.countP_eq_zero]
  intro f hf
  obtain ⟨k, -, description, rfl⟩ := mem_signatureFindings hf
  simp [Finding.isOf, pairFinding]

end

/-! ## Inventories -/

namespace Inventory

/-- A definition gives rise to findings with a line in the implementation only. -/
theorem countP_definitionFindings (header : Inventory) (config : Config) (defn : FunctionRecord)
    (kind : FindingKind) (inImplementation : Bool) :
    (header.definitionFindings config defn).countP (Finding.isOf kind inImplementation) =
      if inImplementation = true then
        definitionTally config (header.function? defn.name) defn kind
      else 0 := by
  rw [definitionFindings]
  cases header.function? defn.name with
  | some decl =>
    cases inImplementation with
    | true => exact countP_signatureFindings config decl defn kind
    | false => exact countP_signatureFindings_header config decl defn kind
  | none =>
    cases kind <;> cases inImplementation <;> rfl

theorem countP_undocumentedFindings (decl : FunctionRecord) (kind : FindingKind)
    (inImplementation : Bool) :
    (undocumentedFindings decl).countP (Finding.isOf kind inImplementation) =
      if kind = .docInconsistency ∧ inImplementation = false ∧ decl.documentation = none then 1
      else 0 := by
  rw [undocumentedFindings, FunctionRecord.isDocumented]
  cases decl.documentation with
  | some text => simp
  | none => cases kind <;> cases inImplementation <;> rfl

theorem countP_unimplementedFindings (implementation : Inventory) (decl : FunctionRecord)
    (kind : FindingKind) (inImplementation : Bool) :
    (implementation.unimplementedFindings decl).countP (Finding.isOf kind inImplementation) =
      if kind = .missingImplementation ∧ inImplementation = false ∧ decl.isDefinition = false ∧
          implementation.definition? decl.name = none then 1
      else 0 := by
  rw [unimplementedFindings]
  cases decl.isDefinition with
  | true => simp
  | false =>
    cases implementation.definition? decl.name with
    | some defn => simp
    | none => cases kind <;> cases inImplementation <;> rfl

/-- A record of the header gives rise to findings without a line in the implementation
only. -/
theorem countP_recordFindings (implementation : Inventory) (decl : FunctionRecord)
    (kind : FindingKind) (inImplementation : Bool) :
    (implementation.recordFindings decl).countP (Finding.isOf kind inImplementation) =
      if inImplementation = true then 0 else recordTally implementation decl kind := by
  rw [recordFindings, List.countP_append, countP_undocumentedFindings,
    countP_unimplementedFindings]
  cases kind <;> cases inImplementation <;> simp [recordTally]

/-- The findings about a name are counted at the two records they come from. -/
theorem tally_compare_eq_add (implementation header : Inventory) (config : Config)
    (name : String) (kind : FindingKind) (inImplementation : Bool) :
    tally name kind inImplementation (implementation.compare header config) =
      ((implementation.eligibleDefinition? config name).elim 0 fun defn =>
        (header.definitionFindings config defn).countP (Finding.isOf kind inImplementation)) +
      ((header.eligibleRecord? config name).elim 0 fun decl =>
        (implementation.recordFindings decl).countP (Finding.isOf kind inImplementation)) := by
  have hoption : ∀ (o : Option FunctionRecord) (findings : FunctionRecord → List Finding),
      (o.toList.flatMap findings).countP (Finding.isOf kind inImplementation) =
        o.elim 0 fun r => (findings r).countP (Finding.isOf kind inImplementation) := by
    intro o findings
    cases o with
    | none => rfl
    | some r => rw [Option.toList_some, List.flatMap_singleton]; rfl
  have hfilter : tally name kind inImplementation (implementation.compare header config) =
      ((implementation.compare header config).filter (Finding.isAbout name)).countP
        (Finding.isOf kind inImplementation) := by
    rw [tally, List.countP_filter]
    congr 1
    funext f
    exact Bool.and_comm _ _
  rw [hfilter, filter_compare, List.countP_append, hoption, hoption]

/-- For every name and kind the number of findings is given by the first eligible
definition of the name in the implementation, the first record and the first eligible
record of the name in the header. -/
theorem tally_compare (implementation header : Inventory) (config : Config) (name : String)
    (kind : FindingKind) :
    tally name kind true (implementation.compare header config) =
        (implementation.eligibleDefinition? config name).elim 0
          (definitionTally config (header.function? name) · kind) ∧
      tally name kind false (implementation.compare header config) =
        (header.eligibleRecord? config name).elim 0 (recordTally implementation · kind) := by
  rw [tally_compare_eq_add, tally_compare_eq_add]
  simp only [countP_definitionFindings, countP_recordFindings, if_true, Bool.false_eq_true,
    if_false]
  have hzero : ∀ o : Option FunctionRecord, (o.elim 0 fun _ => 0) = 0 := by
    intro o
    cases o <;> rfl
  rw [hzero, hzero, Nat.add_zero, Nat.zero_add]
  refine ⟨?_, rfl⟩
  cases h : implementation.eligibleDefinition? config name with
  | none => rfl
  | some defn =>
    rw [Option.elim_some, Option.elim_some, name_of_eligibleDefinition? h]

end Inventory

end HeaderLint
