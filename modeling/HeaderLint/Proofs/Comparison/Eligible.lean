import HeaderLint.Proofs.Comparison.ByName

/-!
# Records that take no part

The comparison goes over eligible records only, but it finds the partner of a record by
name alone: for a definition the first record of its name in the header, and for a
declaration any definition of its name in the implementation.  A name is exempt with all
its records, so the only partner that is not eligible is a static function.

`Inventory.onlyEligible` drops the records that are not eligible.
`Inventory.compare_onlyEligible_iff` says that this leaves the comparison as it is if, and
only if, no static function makes a difference as a partner
(`Inventory.PartnersEligible`).
-/

namespace HeaderLint

namespace Inventory

variable {implementation header : Inventory} {config : Config} {name : String}

/-- The inventory without the records that take no part in the comparison. -/
def onlyEligible (inv : Inventory) (config : Config) : Inventory :=
  { inv with functions := inv.functions.filter fun f => f.isEligible config }

/-! ## What is compared -/

theorem comparedDefinitions_onlyEligible (inv : Inventory) (config : Config) :
    (inv.onlyEligible config).comparedDefinitions config = inv.comparedDefinitions config := by
  rw [comparedDefinitions, comparedDefinitions, onlyEligible, List.filter_filter]
  simp only [Bool.and_assoc, Bool.and_self]

theorem comparedRecords_onlyEligible (inv : Inventory) (config : Config) :
    (inv.onlyEligible config).comparedRecords config = inv.comparedRecords config := by
  rw [comparedRecords, comparedRecords, onlyEligible, List.filter_filter]
  simp only [Bool.and_self]

theorem function?_onlyEligible (inv : Inventory) (config : Config) (name : String) :
    (inv.onlyEligible config).function? name = inv.eligibleRecord? config name := by
  rw [function?, onlyEligible, List.find?_filter, eligibleRecord?]
  simp only [Bool.decide_and, Bool.decide_eq_true, Bool.and_comm]

theorem definition?_onlyEligible (inv : Inventory) (config : Config) (name : String) :
    (inv.onlyEligible config).definition? name = inv.eligibleDefinition? config name := by
  rw [definition?, onlyEligible, List.find?_filter, eligibleDefinition?]
  simp only [Bool.decide_and, Bool.decide_eq_true, Bool.and_comm]

/-- Without an eligible partner a record may have a static one, but not the reverse. -/
theorem eligibleRecord?_eq_none {inv : Inventory} (h : inv.function? name = none) :
    inv.eligibleRecord? config name = none := by
  rw [function?, List.find?_eq_none] at h
  rw [eligibleRecord?, List.find?_eq_none]
  intro f hf hname
  exact h f hf (Bool.and_eq_true_iff.mp hname).1

theorem eligibleDefinition?_eq_none {inv : Inventory} (h : inv.definition? name = none) :
    inv.eligibleDefinition? config name = none := by
  rw [definition?, List.find?_eq_none] at h
  rw [eligibleDefinition?, List.find?_eq_none]
  intro f hf hname
  exact h f hf (Bool.and_eq_true_iff.mp hname).1

/-! ## Partners -/

/-- No static function makes a difference as the partner of a record that is compared. -/
structure PartnersEligible (implementation header : Inventory) (config : Config) : Prop where
  /-- Where the header has a record of a compared definition's name, it has an eligible one
  that differs from the definition in the same way. -/
  declaration : ∀ defn ∈ implementation.comparedDefinitions config, ∀ decl,
    header.function? defn.name = some decl →
      ∃ eligible, header.eligibleRecord? config defn.name = some eligible ∧
        signatureFindings config eligible defn = signatureFindings config decl defn
  /-- Where the implementation has no eligible definition of a compared declaration's name,
  it has none at all. -/
  definition : ∀ decl ∈ header.comparedRecords config, decl.isDefinition = false →
    implementation.eligibleDefinition? config decl.name = none →
      implementation.definition? decl.name = none

theorem definitionFindings_onlyEligible_iff {defn : FunctionRecord} :
    (header.onlyEligible config).definitionFindings config defn =
        header.definitionFindings config defn ↔
      ∀ decl, header.function? defn.name = some decl →
        ∃ eligible, header.eligibleRecord? config defn.name = some eligible ∧
          signatureFindings config eligible defn = signatureFindings config decl defn := by
  rw [definitionFindings, definitionFindings, function?_onlyEligible]
  cases hfunction : header.function? defn.name with
  | none =>
    rw [eligibleRecord?_eq_none hfunction]
    simp [onlyEligible]
  | some decl =>
    cases heligible : header.eligibleRecord? config defn.name with
    | some eligible => simp
    | none =>
      -- A finding that the declaration is missing has no line in the header.
      refine iff_of_false ?_ (by simp)
      intro h
      replace h : [_] = signatureFindings config decl defn := h
      obtain ⟨_, _, _, hpair⟩ := mem_signatureFindings (h ▸ List.mem_singleton_self _)
      cases hpair

theorem recordFindings_onlyEligible_iff {decl : FunctionRecord} :
    (implementation.onlyEligible config).recordFindings decl = implementation.recordFindings decl ↔
      (decl.isDefinition = false → implementation.eligibleDefinition? config decl.name = none →
        implementation.definition? decl.name = none) := by
  rw [recordFindings, recordFindings, List.append_cancel_left_eq, unimplementedFindings,
    unimplementedFindings, definition?_onlyEligible]
  cases decl.isDefinition with
  | true => simp
  | false =>
    cases hdefinition : implementation.definition? decl.name with
    | none =>
      rw [eligibleDefinition?_eq_none hdefinition]
      simp [onlyEligible]
    | some defn => cases implementation.eligibleDefinition? config decl.name <;> simp

/-! ## The comparison -/

/-- The comparison is that of the eligible records if, and only if, no static function
makes a difference as a partner. -/
theorem compare_onlyEligible_iff (implementation header : Inventory) (config : Config) :
    (implementation.onlyEligible config).compare (header.onlyEligible config) config =
        implementation.compare header config ↔
      PartnersEligible implementation header config := by
  rw [compare_eq_compare_iff (comparedDefinitions_onlyEligible implementation config)
    (comparedRecords_onlyEligible header config)]
  simp only [definitionFindings_onlyEligible_iff, recordFindings_onlyEligible_iff]
  exact ⟨fun h => ⟨h.1, h.2⟩, fun h => ⟨h.1, h.2⟩⟩

/-- A static declaration in the header passes for the declaration of a function that is not
static, and a static definition in the implementation for its definition. -/
theorem compare_onlyEligible_static :
    ((ofSource ⟨"src/a.c"⟩ "int f(void) \x7b return 0; \x7d\n").onlyEligible {}).compare
        ((ofSource ⟨"include/a.h"⟩ "static int f(void);\n").onlyEligible {}) {} ≠
      (ofSource ⟨"src/a.c"⟩ "int f(void) \x7b return 0; \x7d\n").compare
        (ofSource ⟨"include/a.h"⟩ "static int f(void);\n") {} ∧
    ((ofSource ⟨"src/a.c"⟩ "static int f(void) \x7b return 0; \x7d\n").onlyEligible {}).compare
        ((ofSource ⟨"include/a.h"⟩ "int f(void);\n").onlyEligible {}) {} ≠
      (ofSource ⟨"src/a.c"⟩ "static int f(void) \x7b return 0; \x7d\n").compare
        (ofSource ⟨"include/a.h"⟩ "int f(void);\n") {} := by
  constructor <;> decide +kernel

end Inventory

end HeaderLint
