import HeaderLint.Proofs.Comparison.HeaderSide
import HeaderLint.Proofs.Comparison.Tally

/-!
# The strict comparison refines the default one

The two ways of comparing signatures look at the same pairs of records and differ only in what
they say about a pair.

* The default way says nothing just when the return types and the numbers of parameters agree
  (`looseFindings_eq_nil_iff`).
* The strict way says nothing just when the types of the parameters agree too, place by place
  (`strictFindings_eq_nil_iff`).

Every other finding is the same in both (`Inventory.filter_compare_comparing`).  So a name that
the default way reports is reported by the strict way, and what the strict way reports beyond
that are types of single parameters (`Inventory.compare_strict_refines`).
-/

namespace HeaderLint

/-- The configuration with the strict comparison of signatures or the default one. -/
def Config.comparing (config : Config) (strict : Bool) : Config :=
  { config with strictSignatures := strict }

/-- The kinds of findings that the strict comparison has in place of a mismatch of
signatures. -/
def strictKinds : List FindingKind := [.returnTypeMismatch, .parameterMismatch]

/-! ## A pair of records -/

section
variable {config : Config} {decl defn : FunctionRecord}

theorem signatureFindings_loose :
    signatureFindings (config.comparing false) decl defn = looseFindings decl defn := by
  rw [signatureFindings]
  exact if_neg Bool.false_ne_true

theorem signatureFindings_strict :
    signatureFindings (config.comparing true) decl defn =
      returnFindings decl defn ++ strictParameterFindings decl defn := by
  rw [signatureFindings]
  exact if_pos rfl

theorem kind_of_mem_looseFindings {f : Finding} (h : f ∈ looseFindings decl defn) :
    f.kind = .signatureMismatch := by
  obtain ⟨_, rfl⟩ := mem_looseFindings h
  rfl

theorem kind_of_mem_strictFindings {f : Finding}
    (h : f ∈ returnFindings decl defn ++ strictParameterFindings decl defn) :
    f.kind ∈ strictKinds := by
  rcases List.mem_append.mp h with h | h
  · obtain ⟨_, rfl⟩ := mem_returnFindings h
    exact List.mem_cons_self
  · obtain ⟨_, rfl⟩ := mem_strictParameterFindings h
    exact List.mem_cons_of_mem _ List.mem_cons_self

/-- Parameters of the same number give no finding just when their types agree. -/
theorem parameterFindings_eq_nil_iff {index : Nat} {ps qs : List Parameter} :
    parameterFindings decl defn index ps qs = [] ↔
      ∀ (i : Nat) p q, ps[i]? = some p → qs[i]? = some q →
        normalizeType p.type = normalizeType q.type := by
  induction ps generalizing index qs with
  | nil => simp [parameterFindings]
  | cons p ps ih =>
    cases qs with
    | nil => simp [parameterFindings]
    | cons q qs =>
      rw [parameterFindings]
      constructor
      · intro h i p' q' hp hq
        split at h
        · next htype =>
          cases i with
          | zero =>
            cases hp
            cases hq
            exact htype
          | succ i => exact ih.mp h i p' q' hp hq
        · cases h
      · intro h
        rw [if_pos (h 0 p q rfl rfl)]
        exact ih.mpr fun i p' q' hp hq => h (i + 1) p' q' hp hq

/-- The types of parameters differ at some place. -/
def ParametersDiffer (decl defn : FunctionRecord) : Prop :=
  ∃ (i : Nat) (p q : Parameter), decl.parameters[i]? = some p ∧ defn.parameters[i]? = some q ∧
    normalizeType p.type ≠ normalizeType q.type

theorem not_parametersDiffer_iff :
    ¬ParametersDiffer decl defn ↔
      parameterFindings decl defn 0 decl.parameters defn.parameters = [] := by
  rw [parameterFindings_eq_nil_iff]
  simp only [ParametersDiffer, not_exists, not_and, ne_eq, Decidable.not_not]

/-- Two records agree on the return type and on the number of parameters. -/
structure AgreesLoosely (decl defn : FunctionRecord) : Prop where
  /-- The return types are the same. -/
  returnType_eq : normalizeType decl.returnType = normalizeType defn.returnType
  /-- There are as many parameters. -/
  length_eq : decl.parameters.length = defn.parameters.length

theorem agreesLoosely_iff :
    AgreesLoosely decl defn ↔ returnDiffers decl defn = false ∧ countDiffers decl defn = false := by
  rw [← Bool.not_eq_true, ← Bool.not_eq_true, returnDiffers_iff, countDiffers_iff,
    Decidable.not_not, Decidable.not_not]
  exact ⟨fun h => ⟨h.1, h.2⟩, fun h => ⟨h.1, h.2⟩⟩

/-- The default comparison accepts records that agree on the return type and on the number of
parameters. -/
theorem looseFindings_eq_nil_iff : looseFindings decl defn = [] ↔ AgreesLoosely decl defn := by
  rw [agreesLoosely_iff, looseFindings, ← Bool.or_eq_false_iff]
  cases returnDiffers decl defn || countDiffers decl defn <;> simp

/-- The strict comparison also asks for the same types of parameters. -/
theorem strictFindings_eq_nil_iff :
    returnFindings decl defn ++ strictParameterFindings decl defn = [] ↔
      AgreesLoosely decl defn ∧ ¬ParametersDiffer decl defn := by
  rw [agreesLoosely_iff, List.append_eq_nil_iff, returnFindings, strictParameterFindings,
    not_parametersDiffer_iff]
  cases returnDiffers decl defn <;> cases countDiffers decl defn <;> simp

end

/-! ## Findings about a name -/

/-- Some finding about a name is of one of the kinds. -/
def Reports (fs : List Finding) (kinds : List FindingKind) (name : String) : Prop :=
  ∃ f ∈ fs, f.functionName = name ∧ f.kind ∈ kinds

instance (fs : List Finding) (kinds : List FindingKind) (name : String) :
    Decidable (Reports fs kinds name) :=
  inferInstanceAs (Decidable (∃ f ∈ fs, _ ∧ _))

namespace Inventory

variable {implementation header : Inventory} {config : Config} {name : String}

/-- The comparison looks at a definition of a name and at the declaration it goes with. -/
def Compares (implementation header : Inventory) (config : Config) (name : String)
    (decl defn : FunctionRecord) : Prop :=
  implementation.eligibleDefinition? config name = some defn ∧ header.function? name = some decl

/-- Findings about two signatures come from the pair that is compared. -/
theorem reports_compare_iff {kinds : List FindingKind} (hkinds : kinds ⊆ signatureKinds) :
    Reports (implementation.compare header config) kinds name ↔
      ∃ decl defn, Compares implementation header config name decl defn ∧
        ∃ f ∈ signatureFindings config decl defn, f.kind ∈ kinds := by
  constructor
  · rintro ⟨f, hf, rfl, hkind⟩
    rcases mem_compare_iff.mp hf with ⟨defn, hdefn, hmem⟩ | ⟨decl, -, hmem⟩
    · have hname := name_of_eligibleDefinition? hdefn
      rw [definitionFindings] at hmem
      split at hmem
      · next decl hdecl => exact ⟨decl, defn, ⟨hdefn, hname ▸ hdecl⟩, f, hmem, hkind⟩
      · rw [List.mem_singleton.mp hmem] at hkind
        exact absurd (hkinds (a := .missingDeclaration) hkind) (by decide)
    · rcases mem_recordFindings_iff.mp hmem with ⟨-, rfl⟩ | ⟨-, rfl⟩
      · exact absurd (hkinds (a := .docInconsistency) hkind) (by decide)
      · exact absurd (hkinds (a := .missingImplementation) hkind) (by decide)
  · rintro ⟨decl, defn, ⟨hdefn, hdecl⟩, f, hf, hkind⟩
    obtain rfl := name_of_eligibleDefinition? hdefn
    obtain ⟨_, -, _, rfl⟩ := mem_signatureFindings hf
    refine ⟨_, mem_compare_iff.mpr (Or.inl ⟨defn, hdefn, ?_⟩), rfl, hkind⟩
    rw [definitionFindings, hdecl]
    exact hf

/-- The default comparison reports a mismatch of signatures where a pair does not agree. -/
theorem reports_loose_iff :
    Reports (implementation.compare header (config.comparing false)) [.signatureMismatch] name ↔
      ∃ decl defn, Compares implementation header config name decl defn ∧
        ¬AgreesLoosely decl defn := by
  rw [reports_compare_iff (by decide)]
  refine exists_congr fun decl => exists_congr fun defn => and_congr_right fun _ => ?_
  rw [← looseFindings_eq_nil_iff, signatureFindings_loose]
  constructor
  · rintro ⟨f, hf, -⟩
    exact List.ne_nil_of_mem hf
  · intro h
    obtain ⟨f, hf⟩ := List.exists_mem_of_ne_nil _ h
    exact ⟨f, hf, List.mem_singleton.mpr (kind_of_mem_looseFindings hf)⟩

/-- The strict comparison reports the pairs that differ in the type of some parameter too. -/
theorem reports_strict_iff :
    Reports (implementation.compare header (config.comparing true)) strictKinds name ↔
      ∃ decl defn, Compares implementation header config name decl defn ∧
        ¬(AgreesLoosely decl defn ∧ ¬ParametersDiffer decl defn) := by
  rw [reports_compare_iff (by decide)]
  refine exists_congr fun decl => exists_congr fun defn => and_congr_right fun _ => ?_
  rw [← strictFindings_eq_nil_iff, signatureFindings_strict]
  constructor
  · rintro ⟨f, hf, -⟩
    exact List.ne_nil_of_mem hf
  · intro h
    obtain ⟨f, hf⟩ := List.exists_mem_of_ne_nil _ h
    exact ⟨f, hf, kind_of_mem_strictFindings hf⟩

/-! ## All findings -/

/-- Without what the two ways say about a pair, a definition gives the same findings in
both. -/
theorem filter_definitionFindings_comparing (header : Inventory) (config : Config)
    (defn : FunctionRecord) :
    (header.definitionFindings (config.comparing false) defn).filter
        (fun f => f.kind != .signatureMismatch) =
      (header.definitionFindings (config.comparing true) defn).filter
        fun f => !strictKinds.contains f.kind := by
  rw [definitionFindings, definitionFindings]
  cases header.function? defn.name with
  | none => rfl
  | some decl =>
    have hloose : ∀ f ∈ signatureFindings (config.comparing false) decl defn,
        ¬(f.kind != .signatureMismatch) = true := by
      intro f hf
      rw [signatureFindings_loose] at hf
      rw [kind_of_mem_looseFindings hf]
      decide
    have hstrict : ∀ f ∈ signatureFindings (config.comparing true) decl defn,
        ¬(!strictKinds.contains f.kind) = true := by
      intro f hf
      rw [signatureFindings_strict] at hf
      simp [kind_of_mem_strictFindings hf]
    exact (List.filter_eq_nil_iff.mpr hloose).trans (List.filter_eq_nil_iff.mpr hstrict).symm

theorem filter_recordFindings_comparing (implementation : Inventory) (decl : FunctionRecord) :
    (implementation.recordFindings decl).filter (fun f => f.kind != .signatureMismatch) =
      (implementation.recordFindings decl).filter fun f => !strictKinds.contains f.kind := by
  apply List.filter_congr
  intro f hf
  rcases mem_recordFindings_iff.mp hf with ⟨-, rfl⟩ | ⟨-, rfl⟩ <;> rfl

/-- Without what the two ways say about a pair, the findings are the same in both. -/
theorem filter_compare_comparing (implementation header : Inventory) (config : Config) :
    (implementation.compare header (config.comparing false)).filter
        (fun f => f.kind != .signatureMismatch) =
      (implementation.compare header (config.comparing true)).filter
        fun f => !strictKinds.contains f.kind := by
  rw [compare_eq_append, compare_eq_append, List.filter_append, List.filter_append,
    List.filter_flatMap, List.filter_flatMap, List.filter_flatMap, List.filter_flatMap]
  simp only [filter_definitionFindings_comparing, filter_recordFindings_comparing]
  rfl

/-- The strict comparison finds all that the default one finds, in the same order, but for a
mismatch of signatures: there it says what differs.  What it reports beyond that are pairs that
agree on the return type and on the number of parameters, with different types of parameters at
some place.  So a pair that it accepts is accepted by the default comparison. -/
theorem compare_strict_refines (implementation header : Inventory) (config : Config) :
    let loose := implementation.compare header (config.comparing false)
    let strict := implementation.compare header (config.comparing true)
    (loose.filter fun f => f.kind != .signatureMismatch) =
        (strict.filter fun f => !strictKinds.contains f.kind) ∧
      (∀ name, Reports loose [.signatureMismatch] name → Reports strict strictKinds name) ∧
      (∀ name, Reports strict strictKinds name ∧ ¬Reports loose [.signatureMismatch] name ↔
        ∃ decl defn, Compares implementation header config name decl defn ∧
          AgreesLoosely decl defn ∧ ParametersDiffer decl defn) ∧
      ∀ decl defn, signatureFindings (config.comparing true) decl defn = [] →
        signatureFindings (config.comparing false) decl defn = [] := by
  refine ⟨filter_compare_comparing implementation header config, ?_, ?_, ?_⟩
  · intro name h
    obtain ⟨decl, defn, hpair, hloose⟩ := reports_loose_iff.mp h
    exact reports_strict_iff.mpr ⟨decl, defn, hpair, fun hstrict => hloose hstrict.1⟩
  · intro name
    rw [reports_strict_iff, reports_loose_iff]
    constructor
    · rintro ⟨⟨decl, defn, hpair, hstrict⟩, hloose⟩
      have hagrees : AgreesLoosely decl defn :=
        Classical.not_not.mp fun hne => hloose ⟨decl, defn, hpair, hne⟩
      exact ⟨decl, defn, hpair, hagrees, Classical.not_not.mp fun hsame => hstrict ⟨hagrees, hsame⟩⟩
    · rintro ⟨decl, defn, hpair, hagrees, hdiffer⟩
      refine ⟨⟨decl, defn, hpair, fun h => h.2 hdiffer⟩, ?_⟩
      rintro ⟨decl', defn', hpair', hne⟩
      -- A name has one pair only.
      cases hpair.1.symm.trans hpair'.1
      cases hpair.2.symm.trans hpair'.2
      exact hne hagrees
  · intro decl defn h
    rw [signatureFindings_loose, looseFindings_eq_nil_iff]
    exact (strictFindings_eq_nil_iff.mp h).1

/-- The header declares `f` without the parameter and `g` with another type. -/
theorem compare_strict_refines_types :
    let implementation := ofSource ⟨"src/a.c"⟩ "int f(int a) \x7b\x7d int g(int a) \x7b\x7d"
    let header := ofSource ⟨"include/a.h"⟩ "int f(void); int g(char a);"
    Reports (implementation.compare header (Config.comparing {} false)) [.signatureMismatch] "f" ∧
      Reports (implementation.compare header (Config.comparing {} true)) strictKinds "f" ∧
      Reports (implementation.compare header (Config.comparing {} true)) strictKinds "g" ∧
      ¬Reports (implementation.compare header (Config.comparing {} false)) [.signatureMismatch]
        "g" ∧
      ∃ decl defn, Compares implementation header {} "g" decl defn ∧
        AgreesLoosely decl defn ∧ ParametersDiffer decl defn := by
  intro implementation header
  have hf : Reports (implementation.compare header (Config.comparing {} false))
      [.signatureMismatch] "f" := by decide +kernel
  have hg : Reports (implementation.compare header (Config.comparing {} true)) strictKinds "g" := by
    decide +kernel
  have hg' : ¬Reports (implementation.compare header (Config.comparing {} false))
      [.signatureMismatch] "g" := by decide +kernel
  obtain ⟨-, hname, htypes, -⟩ := compare_strict_refines implementation header {}
  exact ⟨hf, hname "f" hf, hg, hg', (htypes "g").mp ⟨hg, hg'⟩⟩

end Inventory

end HeaderLint
