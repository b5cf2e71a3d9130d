import HeaderLint.Proofs.Comparison.SameCode
import HeaderLint.Proofs.Comparison.Strict
import HeaderLint.Proofs.Signature.Prototype

/-!
# Prototypes without names of parameters

A prototype may leave out names that the definition gives to its parameters.
`FunctionRecord.extract_bare` says when this is no difference to the strict comparison: the types
of the parameters stay the same just when no part without its name ends with a word that may be a
name itself.

What a name looks like is a matter of its place.  The parameter `const size_t` is read with the
name `size_t`, so its type changes when the name behind it is left out.
-/

namespace HeaderLint

open Token (SameCode significant)
open FunctionRecord (SameInterface)

/-- The tokens that carry structure are the given ones but for their places. -/
def Token.Lays (ts us : List Token) : Prop :=
  ((significant ts).map fun t => (t.kind, t.text)) = us.map fun t => (t.kind, t.text)

instance (ts us : List Token) : Decidable (Token.Lays ts us) :=
  inferInstanceAs (Decidable (_ = _))

open Token (Lays)

theorem Token.Lays.significant_eq {ts us : List Token} (h : Lays ts us) : significant us = us := by
  refine Token.significant_eq_self fun u hu => ?_
  have hcode : (u.kind, u.text) ∈ (significant ts).map fun t => (t.kind, t.text) := by
    rw [h]
    exact List.mem_map_of_mem hu
  obtain ⟨t, ht, hkind⟩ := List.mem_map.mp hcode
  rw [← (Prod.mk.inj hkind).1]
  exact (List.mem_filter.mp ht).2

theorem Token.Lays.sameCode {ts us : List Token} (h : Lays ts us) : SameCode us ts := by
  rw [SameCode, h.significant_eq]
  exact h.symm

/-- The functions of laid out tokens are the signatures that the walk finds in them, but for
places and documentation. -/
theorem FunctionRecord.extract_lays {ts us : List Token} (h : Lays ts us) :
    List.Forall₂ (fun s f => SameInterface (s.withDocumentation us) f) (Scope.start.walk us)
      (extract ts) := by
  have hsame := extract_sameCode h.sameCode
  rw [extract, Signature.extract, extractFrom_eq_walk, h.significant_eq] at hsame
  exact List.forall₂_map_left_iff.mp hsame

/-! ## The pair that is compared -/

section
variable {decl defn : FunctionRecord}

/-- Records with the same types of parameters give no finding about these. -/
theorem kind_of_mem_strictFindings_of_types {config : Config} {f : Finding}
    (htypes : decl.parameters.map Parameter.type = defn.parameters.map Parameter.type)
    (hf : f ∈ signatureFindings (config.comparing true) decl defn) :
    f.kind ≠ .parameterMismatch := by
  have hcount : countDiffers decl defn = false := by
    rw [← Bool.not_eq_true, countDiffers_iff, Decidable.not_not]
    simpa using congrArg List.length htypes
  have hsame : ¬ParametersDiffer decl defn := by
    rintro ⟨i, p, q, hp, hq, hne⟩
    have htype := congrArg (·[i]?) htypes
    simp only [List.getElem?_map, hp, hq, Option.map_some, Option.some_inj] at htype
    exact hne (congrArg normalizeType htype)
  rw [signatureFindings_strict, strictParameterFindings, hcount,
    not_parametersDiffer_iff.mp hsame] at hf
  obtain ⟨_, rfl⟩ := mem_returnFindings (by simpa using hf)
  show FindingKind.returnTypeMismatch ≠ .parameterMismatch
  decide

/-- So the strict comparison reports no such finding about their name. -/
theorem Inventory.not_reports_of_types {implementation header : Inventory} {config : Config}
    {name : String}
    (htypes : decl.parameters.map Parameter.type = defn.parameters.map Parameter.type)
    (hpair : Compares implementation header (config.comparing true) name decl defn) :
    ¬Reports (implementation.compare header (config.comparing true)) [.parameterMismatch] name := by
  rw [reports_compare_iff (by decide)]
  rintro ⟨decl', defn', hpair', f, hf, hkind⟩
  cases hpair.1.symm.trans hpair'.1
  cases hpair.2.symm.trans hpair'.2
  exact kind_of_mem_strictFindings_of_types htypes hf (List.mem_singleton.mp hkind)

end

/-! ## Names left out -/

theorem rel_of_getElem? {α β : Type} {R : α → β → Prop} {xs : List α} {ys : List β}
    (h : List.Forall₂ R xs ys) {i : Nat} {x : α} {y : β} (hx : xs[i]? = some x)
    (hy : ys[i]? = some y) : R x y := by
  obtain ⟨hi, rfl⟩ := List.getElem?_eq_some_iff.mp hx
  obtain ⟨hi', rfl⟩ := List.getElem?_eq_some_iff.mp hy
  exact h.get hi hi'

namespace FunctionRecord

/-- Functions in a row are extracted with the names of their parameters and without those that
are left out, one by one.  Where nothing behind a name that is left out shows a name itself, both
records have the same types of parameters, place by place, and no name where one is left out, if
and only if no part that has lost its name ends with a word that may be one, and `void` is not
left alone.  Then the strict comparison of the two reports no difference of parameters. -/
theorem extract_bare (ds : List NamedFunction) (ts us : List Token)
    (hts : Lays ts (ds.flatMap (NamedFunction.tokens · false)))
    (hus : Lays us (ds.flatMap (NamedFunction.tokens · true))) :
    (extract ts).length = ds.length ∧ (extract us).length = ds.length ∧
      ∀ (i : Nat) d f g, ds[i]? = some d → (extract ts)[i]? = some f → (extract us)[i]? = some g →
        (f.name = d.name.text ∧ g.name = f.name ∧ g.returnType = f.returnType) ∧
        ((∀ p, (p, true) ∈ d.parameters → p.IsRegular) →
          (d.Keeps f.parameters g.parameters ↔ d.IsNameless) ∧
          (d.IsNameless → ∀ implementation header config name,
            Inventory.Compares implementation header (Config.comparing config true) name g f →
              ¬Reports (implementation.compare header (config.comparing true))
                [.parameterMismatch] name)) := by
  have hnamed := extract_lays hts
  have hbare := extract_lays hus
  rw [NamedFunction.walk_flatMap_tokens, List.forall₂_map_left_iff] at hnamed
  rw [NamedFunction.walk_flatMap_tokens, List.forall₂_map_left_iff] at hbare
  refine ⟨hnamed.length_eq.symm, hbare.length_eq.symm, ?_⟩
  intro i d f g hd hf hg
  have hfull := rel_of_getElem? hnamed hd hf
  have hgap := rel_of_getElem? hbare hd hg
  refine ⟨⟨hfull.name_eq, hgap.name_eq.trans hfull.name_eq.symm,
    hgap.returnType_eq.trans hfull.returnType_eq.symm⟩, fun hregular => ?_⟩
  have hkeeps : d.Keeps f.parameters g.parameters ↔ d.IsNameless := by
    rw [hfull.parameters_eq, hgap.parameters_eq]
    exact d.keeps_iff hregular
  refine ⟨hkeeps, fun hnameless implementation header config name hpair => ?_⟩
  exact Inventory.not_reports_of_types (hkeeps.mpr hnameless).types_eq hpair

end FunctionRecord

namespace NamedFunction

/-- The tokens of `int f(struct point *p, int n[3], int (*g)(int)) {}`, and of a prototype
without these names. -/
def sample : NamedFunction where
  head := [⟨.keyword, "int", .start⟩]
  name := ⟨.identifier, "f", .start⟩
  opening := ⟨.punctuation, "(", .start⟩
  parameters := [
    ({ left := [⟨.keyword, "struct", .start⟩, ⟨.identifier, "point", .start⟩,
        ⟨.operator, "*", .start⟩]
       name := ⟨.identifier, "p", .start⟩
       right := []
       isDeclarator := .plain
        ⟨[_, _], [_], rfl, .tag (by decide) (by decide) rfl .nil, by decide, by decide⟩
       isName := rfl }, true),
    ({ left := [⟨.keyword, "int", .start⟩]
       name := ⟨.identifier, "n", .start⟩
       right := [⟨.punctuation, "[", .start⟩, ⟨.number, "3", .start⟩, ⟨.punctuation, "]", .start⟩]
       isDeclarator := .array
        ⟨[_], [], rfl, .word (by decide) (by decide) .nil, by decide, by decide⟩
        (@ArrayBounds.cons _ _ [_] _ (by decide) (by decide)
          (encloses_flat (List.forall_mem_singleton.mpr (isFlat_of_kind rfl (by decide))))
          (by decide) .nil)
        (by decide)
       isName := rfl }, true),
    ({ left := [⟨.keyword, "int", .start⟩] ++
        [⟨.punctuation, "(", .start⟩, ⟨.operator, "*", .start⟩]
       name := ⟨.identifier, "g", .start⟩
       right := ⟨.punctuation, ")", .start⟩ :: ⟨.punctuation, "(", .start⟩ ::
        ([⟨.keyword, "int", .start⟩] ++ [⟨.punctuation, ")", .start⟩])
       isDeclarator := .pointer
        ⟨[_], [], rfl, .word (by decide) (by decide) .nil, by decide, by decide⟩
        (by decide) (by decide) (by decide) (by decide) (by decide)
        (encloses_flat (List.forall_mem_singleton.mpr (isFlat_of_isTypeToken (by decide))))
        (by decide)
       isName := rfl }, true)]
  comma := ⟨.punctuation, ",", .start⟩
  closing := ⟨.punctuation, ")", .start⟩
  ending
    | false => [⟨.punctuation, "\x7b", .start⟩, ⟨.punctuation, "\x7d", .start⟩]
    | true => [⟨.punctuation, ";", .start⟩]
  isDefinition := not
  starts := ⟨rfl, by decide, headFits_of_forall_isTypeToken (by decide) none, by decide⟩
  opens := by decide
  separates := by decide
  closes := by decide
  ends
    | false => @Ending.body _ _ [] (by decide) (by decide) (by decide)
    | true => .semicolon (by decide)

/-- The tokens of `void f(const size_t n) {}`, and of a prototype without this name. -/
def typedefSample : NamedFunction where
  head := [⟨.keyword, "void", .start⟩]
  name := ⟨.identifier, "f", .start⟩
  opening := ⟨.punctuation, "(", .start⟩
  parameters := [
    ({ left := [⟨.keyword, "const", .start⟩, ⟨.identifier, "size_t", .start⟩]
       name := ⟨.identifier, "n", .start⟩
       right := []
       isDeclarator := .plain ⟨[_, _], [], rfl,
        .word (by decide) (by decide) (.word (by decide) (by decide) .nil), by decide, by decide⟩
       isName := rfl }, true)]
  comma := ⟨.punctuation, ",", .start⟩
  closing := ⟨.punctuation, ")", .start⟩
  ending
    | false => [⟨.punctuation, "\x7b", .start⟩, ⟨.punctuation, "\x7d", .start⟩]
    | true => [⟨.punctuation, ";", .start⟩]
  isDefinition := not
  starts := ⟨rfl, by decide, headFits_of_forall_isTypeToken (by decide) none, by decide⟩
  opens := by decide
  separates := by decide
  closes := by decide
  ends
    | false => @Ending.body _ _ [] (by decide) (by decide) (by decide)
    | true => .semicolon (by decide)

end NamedFunction

namespace FunctionRecord

/-- A parameter of each form is read the same with and without its name. -/
theorem extract_bare_sample :
    let implementation := Inventory.ofSource ⟨"src/a.c"⟩
      "int f(struct point *p, int n[3], int (*g)(int)) \x7b\x7d\n"
    let header := Inventory.ofSource ⟨"include/a.h"⟩
      "int f(struct point *, int[3], int (*)(int));\n"
    Lays implementation.tokens ([NamedFunction.sample].flatMap (NamedFunction.tokens · false)) ∧
      Lays header.tokens ([NamedFunction.sample].flatMap (NamedFunction.tokens · true)) ∧
      (∀ p, (p, true) ∈ NamedFunction.sample.parameters → p.IsRegular) ∧
      NamedFunction.sample.IsNameless ∧
      ∃ f g, implementation.functions[0]? = some f ∧ header.functions[0]? = some g ∧
        NamedFunction.sample.Keeps f.parameters g.parameters ∧
        Inventory.Compares implementation header (Config.comparing {} true) "f" g f ∧
        ¬Reports (implementation.compare header (Config.comparing {} true)) [.parameterMismatch]
          "f" := by
  intro implementation header
  have hts : Lays implementation.tokens
      ([NamedFunction.sample].flatMap (NamedFunction.tokens · false)) := by
    decide +kernel
  have hus : Lays header.tokens ([NamedFunction.sample].flatMap (NamedFunction.tokens · true)) := by
    decide +kernel
  have hregular : ∀ p, (p, true) ∈ NamedFunction.sample.parameters → p.IsRegular := by
    intro p hp
    simp only [NamedFunction.sample, List.mem_cons, Prod.mk.injEq, and_true, List.not_mem_nil,
      or_false] at hp
    rcases hp with rfl | rfl | rfl <;> decide
  have hnameless : NamedFunction.sample.IsNameless := by
    refine ⟨fun p hp => ?_, ?_⟩
    · simp only [NamedFunction.sample, List.mem_cons, Prod.mk.injEq, and_true, List.not_mem_nil,
        or_false] at hp
      rcases hp with rfl | rfl | rfl
      · exact .mark [_, _] (by decide)
      · exact .word _
      · exact .mark [_, _] (by decide)
    · rintro ⟨p, t, hparameters, -⟩
      exact absurd (congrArg List.length hparameters) (by simp [NamedFunction.sample])
  obtain ⟨f, hf⟩ : ∃ f, implementation.functions[0]? = some f :=
    Option.isSome_iff_exists.mp (by decide +kernel)
  obtain ⟨g, hg⟩ : ∃ g, header.functions[0]? = some g :=
    Option.isSome_iff_exists.mp (by decide +kernel)
  have hdefn : implementation.eligibleDefinition? (Config.comparing {} true) "f" =
      implementation.functions[0]? := by
    decide +kernel
  have hdecl : header.function? "f" = header.functions[0]? := by
    decide +kernel
  obtain ⟨-, -, hpair⟩ := extract_bare [NamedFunction.sample] _ _ hts hus
  obtain ⟨-, hread⟩ := hpair 0 _ f g rfl hf hg
  obtain ⟨hkeeps, hstrict⟩ := hread hregular
  have hcompares := And.intro (hdefn.trans hf) (hdecl.trans hg)
  exact ⟨hts, hus, hregular, hnameless, f, g, hf, hg, hkeeps.mpr hnameless, hcompares,
    hstrict hnameless implementation header {} "f" hcompares⟩

/-- Without the name behind it a type that is a word of its own is read as the name. -/
theorem extract_bare_typedef :
    ¬∀ (ds : List NamedFunction) (ts us : List Token),
      Lays ts (ds.flatMap (NamedFunction.tokens · false)) →
      Lays us (ds.flatMap (NamedFunction.tokens · true)) →
      ∀ (i : Nat) d f g, ds[i]? = some d → (extract ts)[i]? = some f →
        (extract us)[i]? = some g → d.Keeps f.parameters g.parameters := by
  intro hkeeps
  have hts : Lays (Token.scan "void f(const size_t n) \x7b\x7d\n")
      ([NamedFunction.typedefSample].flatMap (NamedFunction.tokens · false)) := by
    decide +kernel
  have hus : Lays (Token.scan "void f(const size_t);\n")
      ([NamedFunction.typedefSample].flatMap (NamedFunction.tokens · true)) := by
    decide +kernel
  obtain ⟨f, hf⟩ : ∃ f, (extract (Token.scan "void f(const size_t n) \x7b\x7d\n"))[0]? = some f :=
    Option.isSome_iff_exists.mp (by decide +kernel)
  obtain ⟨g, hg⟩ : ∃ g, (extract (Token.scan "void f(const size_t);\n"))[0]? = some g :=
    Option.isSome_iff_exists.mp (by decide +kernel)
  have hdiffer : ((extract (Token.scan "void f(const size_t);\n"))[0]?.map fun g =>
      g.parameters.map Parameter.type) ≠
        (extract (Token.scan "void f(const size_t n) \x7b\x7d\n"))[0]?.map fun f =>
          f.parameters.map Parameter.type := by
    decide +kernel
  rw [hf, hg] at hdiffer
  exact hdiffer (congrArg some (hkeeps [.typedefSample] _ _ hts hus 0 _ f g rfl hf hg).types_eq)

end FunctionRecord

end HeaderLint
