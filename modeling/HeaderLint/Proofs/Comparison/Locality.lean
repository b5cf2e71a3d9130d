import HeaderLint.Proofs.Comparison.ByName

/-!
# Names do not meddle with each other

The comparison goes over all records of two files, but what it says about a name depends on
the records of that name alone, and on the two paths (`Inventory.SameRecords`).  All look-ups
of the comparison are by name, and each of them finds the same when the records of the name
are the same in the same order.

So the findings about a name are the comparison of the two files with only the records of that
name left (`Inventory.restrict`).  Records with other names may come, go and change places, and
all that moves is the order in which the names are reported (`Inventory.compare_local`).
-/

namespace HeaderLint

/-! ## Findings name by name -/

/-- Findings that are the same about each name are the same in another order. -/
theorem perm_of_filter_isAbout {fs gs : List Finding}
    (h : ∀ name, fs.filter (Finding.isAbout name) = gs.filter (Finding.isAbout name)) :
    fs.Perm gs := by
  rw [List.perm_iff_count]
  intro f
  have habout : Finding.isAbout f.functionName f = true := beq_self_eq_true _
  rw [← List.count_filter habout, h, List.count_filter habout]

namespace Inventory

variable {inv inv' implementation implementation' header header' : Inventory} {config : Config}
  {name : String}

/-! ## The records of a name -/

/-- The inventory with the records of one name only. -/
def restrict (inv : Inventory) (name : String) : Inventory :=
  { inv with functions := inv.functions.filter fun f => f.name == name }

/-- Two inventories have the same path, and the same records of a name in the same order. -/
structure SameRecords (name : String) (inv inv' : Inventory) : Prop where
  /-- The path is the same. -/
  path_eq : inv'.path = inv.path
  /-- The records of the name are the same. -/
  filter_eq : inv'.functions.filter (fun f => f.name == name) =
    inv.functions.filter fun f => f.name == name

theorem sameRecords_restrict (inv : Inventory) (name : String) :
    SameRecords name inv (inv.restrict name) := by
  refine ⟨rfl, ?_⟩
  simp [restrict, List.filter_filter]

/-- Where no name has two records, any order of the records will do. -/
theorem sameRecords_of_perm (hpath : inv'.path = inv.path)
    (hperm : inv'.functions.Perm inv.functions)
    (hnames : (inv.functions.map fun f => f.name).Nodup) (name : String) :
    SameRecords name inv inv' := by
  refine ⟨hpath, ?_⟩
  have hfilter := hperm.filter fun f => f.name == name
  have hlength : (inv.functions.filter fun f => f.name == name).length ≤ 1 := by
    have hcount := List.nodup_iff_count.mp hnames name
    rwa [List.count_eq_countP, List.countP_map, List.countP_eq_length_filter] at hcount
  generalize inv.functions.filter _ = fs at hfilter hlength
  match fs, hlength with
  | [], _ => exact List.perm_nil.mp hfilter
  | [f], _ => exact List.perm_singleton.mp hfilter

/-! ## Look-ups -/

namespace SameRecords

/-- A look-up by name finds the same. -/
theorem find?_eq (h : SameRecords name inv inv') (p : FunctionRecord → Bool) :
    (inv'.functions.find? fun f => f.name == name && p f) =
      inv.functions.find? fun f => f.name == name && p f := by
  have hfind := congrArg (List.find? p) h.filter_eq
  simp only [List.find?_filter, Bool.decide_and, Bool.decide_eq_true] at hfind
  exact hfind

theorem function?_eq (h : SameRecords name inv inv') :
    inv'.function? name = inv.function? name := by
  simpa [function?] using h.find?_eq fun _ => true

theorem definition?_eq (h : SameRecords name inv inv') :
    inv'.definition? name = inv.definition? name :=
  h.find?_eq fun f => f.isDefinition

theorem eligibleDefinition?_eq (h : SameRecords name inv inv') :
    inv'.eligibleDefinition? config name = inv.eligibleDefinition? config name := by
  simpa [eligibleDefinition?, Bool.and_assoc] using
    h.find?_eq fun f => f.isDefinition && f.isEligible config

theorem eligibleRecord?_eq (h : SameRecords name inv inv') :
    inv'.eligibleRecord? config name = inv.eligibleRecord? config name :=
  h.find?_eq fun f => f.isEligible config

theorem definitionFindings_eq {defn : FunctionRecord} (h : SameRecords defn.name header header') :
    header'.definitionFindings config defn = header.definitionFindings config defn := by
  rw [definitionFindings, definitionFindings, h.function?_eq, h.path_eq]

theorem recordFindings_eq {decl : FunctionRecord}
    (h : SameRecords decl.name implementation implementation') :
    implementation'.recordFindings decl = implementation.recordFindings decl := by
  rw [recordFindings, recordFindings, unimplementedFindings, unimplementedFindings,
    h.definition?_eq, h.path_eq]

end SameRecords

/-! ## The comparison -/

/-- The findings about a name depend on the records of that name alone. -/
theorem filter_compare_congr (himplementation : SameRecords name implementation implementation')
    (hheader : SameRecords name header header') :
    (implementation'.compare header' config).filter (Finding.isAbout name) =
      (implementation.compare header config).filter (Finding.isAbout name) := by
  rw [filter_compare, filter_compare, himplementation.eligibleDefinition?_eq,
    hheader.eligibleRecord?_eq]
  congr 1
  · cases hdefn : implementation.eligibleDefinition? config name with
    | none => rfl
    | some defn =>
      obtain rfl := name_of_eligibleDefinition? hdefn
      simp [hheader.definitionFindings_eq]
  · cases hdecl : header.eligibleRecord? config name with
    | none => rfl
    | some decl =>
      obtain rfl := name_of_eligibleRecord? hdecl
      simp [himplementation.recordFindings_eq]

/-- With the records of one name only, every finding is about that name. -/
theorem isAbout_of_mem_compare_restrict {f : Finding}
    (h : f ∈ (implementation.restrict name).compare (header.restrict name) config) :
    f.isAbout name = true := by
  rcases mem_compare_iff.mp h with ⟨defn, hdefn, -⟩ | ⟨decl, hdecl, -⟩
  · have hmem := List.mem_of_find?_eq_some hdefn
    rw [Finding.isAbout, ← name_of_eligibleDefinition? hdefn]
    exact (List.mem_filter.mp hmem).2
  · have hmem := List.mem_of_find?_eq_some hdecl
    rw [Finding.isAbout, ← name_of_eligibleRecord? hdecl]
    exact (List.mem_filter.mp hmem).2

/-- What the comparison says about a name is what it says when the two files have the records
of that name only.  Records that change places with those of other names change the order of
the findings only.  Records with other names that come, go or change leave the findings about
the name and their order alone. -/
theorem compare_local (implementation header : Inventory) (config : Config) :
    (∀ name, (implementation.compare header config).filter (Finding.isAbout name) =
      (implementation.restrict name).compare (header.restrict name) config) ∧
    (∀ implementation' header' : Inventory,
      (∀ name, SameRecords name implementation implementation') →
      (∀ name, SameRecords name header header') →
        (implementation'.compare header' config).Perm (implementation.compare header config)) ∧
    ∀ (name : String) (implementation' header' : Inventory),
      SameRecords name implementation implementation' → SameRecords name header header' →
        (implementation'.compare header' config).filter (Finding.isAbout name) =
          (implementation.compare header config).filter (Finding.isAbout name) := by
  refine ⟨?_, ?_, ?_⟩
  · intro name
    rw [← filter_compare_congr (sameRecords_restrict implementation name)
      (sameRecords_restrict header name), List.filter_eq_self]
    intro f hf
    exact isAbout_of_mem_compare_restrict hf
  · intro implementation' header' himplementation hheader
    exact perm_of_filter_isAbout fun name =>
      filter_compare_congr (himplementation name) (hheader name)
  · intro name implementation' header' himplementation hheader
    exact filter_compare_congr himplementation hheader

/-- Two definitions change places, and then all records go but those of `g`, which the header
declares with a parameter. -/
theorem compare_local_swapped :
    (∀ name, SameRecords name (ofSource ⟨"src/a.c"⟩ "int f() \x7b\x7d int g() \x7b\x7d")
      ⟨⟨"src/a.c"⟩, [],
        (ofSource ⟨"src/a.c"⟩ "int f() \x7b\x7d int g() \x7b\x7d").functions.reverse⟩) ∧
    (∀ name, SameRecords name (ofSource ⟨"include/a.h"⟩ "int g(int);")
      (ofSource ⟨"include/a.h"⟩ "int g(int);")) ∧
    (compare
        ⟨⟨"src/a.c"⟩, [],
          (ofSource ⟨"src/a.c"⟩ "int f() \x7b\x7d int g() \x7b\x7d").functions.reverse⟩
        (ofSource ⟨"include/a.h"⟩ "int g(int);") {}).Perm
      (compare (ofSource ⟨"src/a.c"⟩ "int f() \x7b\x7d int g() \x7b\x7d")
        (ofSource ⟨"include/a.h"⟩ "int g(int);") {}) ∧
    SameRecords "g" (ofSource ⟨"src/a.c"⟩ "int f() \x7b\x7d int g() \x7b\x7d")
      ((ofSource ⟨"src/a.c"⟩ "int f() \x7b\x7d int g() \x7b\x7d").restrict "g") ∧
    (compare ((ofSource ⟨"src/a.c"⟩ "int f() \x7b\x7d int g() \x7b\x7d").restrict "g")
        (ofSource ⟨"include/a.h"⟩ "int g(int);") {}).filter (Finding.isAbout "g") =
      (compare (ofSource ⟨"src/a.c"⟩ "int f() \x7b\x7d int g() \x7b\x7d")
        (ofSource ⟨"include/a.h"⟩ "int g(int);") {}).filter (Finding.isAbout "g") := by
  have hnames : ((ofSource ⟨"src/a.c"⟩ "int f() \x7b\x7d int g() \x7b\x7d").functions.map
      fun f => f.name).Nodup := by decide +kernel
  have hswapped : ∀ name, SameRecords name
      (ofSource ⟨"src/a.c"⟩ "int f() \x7b\x7d int g() \x7b\x7d")
      ⟨⟨"src/a.c"⟩, [],
        (ofSource ⟨"src/a.c"⟩ "int f() \x7b\x7d int g() \x7b\x7d").functions.reverse⟩ :=
    sameRecords_of_perm rfl (List.reverse_perm _) hnames
  have hheader : ∀ name, SameRecords name (ofSource ⟨"include/a.h"⟩ "int g(int);")
      (ofSource ⟨"include/a.h"⟩ "int g(int);") := fun name => ⟨rfl, rfl⟩
  have hremoved := sameRecords_restrict
    (ofSource ⟨"src/a.c"⟩ "int f() \x7b\x7d int g() \x7b\x7d") "g"
  exact ⟨hswapped, hheader, (compare_local _ _ {}).2.1 _ _ hswapped hheader, hremoved,
    (compare_local _ _ {}).2.2 "g" _ _ hremoved (hheader "g")⟩

end Inventory

end HeaderLint
