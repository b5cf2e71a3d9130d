import HeaderLint.Proofs.Comparison.Strict
import HeaderLint.Proofs.Signature.StatementWords

/-!
# Return types are compared exactly

Return types are compared as texts with one space between words.  In a source that loses
nothing and invents nothing.

* The text of a return type has one space between words already (`normalizeType_joinTexts`).
* Two lists of words, stars and ampersands with the same text are the same list
  (`joinTexts_injective`).  A word ends before the space behind it, a star and an ampersand end by
  themselves.

So two return types differ just when their tokens have different texts, and both ways of comparing
signatures go by that (`FunctionRecord.returnTypes_exact`).
-/

namespace HeaderLint

open Text
open DocLine (IsWord)
open Token (scan significant)

/-! ## Texts with one space between words -/

namespace Text

theorem words_append_cons (cs ds : List Char) {c : Char} (h : isBlank c = true) :
    words (cs ++ c :: ds) = words cs ++ words ds := by
  rw [words, List.splitOnP_append_cons _ _ h, List.filter_append]
  rfl

theorem words_of_ne_nil {cs : List Char} (hne : cs ≠ []) (h : ∀ c ∈ cs, isBlank c = false) :
    words cs = [cs] := by
  have hsingle : cs.splitOnP isBlank = [cs] := List.splitOnP_eq_singleton h
  rw [words, hsingle, List.filter_singleton, List.isEmpty_eq_false_iff.mpr hne]
  rfl

/-- A text without blanks has nothing to space. -/
theorem spaced_of_forall {cs : List Char} (h : ∀ c ∈ cs, isBlank c = false) : spaced cs = cs := by
  by_cases hne : cs = []
  · subst hne
    decide
  · rw [spaced, words_of_ne_nil hne h, List.intercalate_singleton]

/-- A space behind a word stays, if a word follows it. -/
theorem spaced_append_space {cs ds : List Char} (hne : cs ≠ []) (h : ∀ c ∈ cs, isBlank c = false)
    (hds : spaced ds = ds) (hnil : ds ≠ []) : spaced (cs ++ ' ' :: ds) = cs ++ ' ' :: ds := by
  have hwords : words ds ≠ [] := by
    intro hwords
    rw [spaced, hwords] at hds
    exact hnil hds.symm
  obtain ⟨w, ws, hcons⟩ := List.exists_cons_of_ne_nil hwords
  calc spaced (cs ++ ' ' :: ds)
      = [' '].intercalate (cs :: words ds) := by
        rw [spaced, words_append_cons cs ds (by decide), words_of_ne_nil hne h,
          List.singleton_append]
    _ = cs ++ [' '] ++ spaced ds := by
        rw [spaced, hcons, List.intercalate_cons_cons]
    _ = cs ++ ' ' :: ds := by
        rw [hds, List.append_assoc, List.singleton_append]

end Text

/-! ## The text of a type -/

theorem toList_ne_nil_of_isTypeText {text : String} (h : IsTypeText text) : text.toList ≠ [] := by
  rcases h with h | rfl | rfl
  · exact h.ne_nil
  · decide
  · decide

theorem isBlank_of_isTypeText {text : String} (h : IsTypeText text) :
    ∀ c ∈ text.toList, isBlank c = false := by
  rcases h with h | rfl | rfl
  · exact fun c hc => isBlank_of_isWordChar (h.chars c hc)
  · show ∀ c ∈ ['*'], isBlank c = false
    exact List.forall_mem_singleton.mpr (by decide)
  · show ∀ c ∈ ['&'], isBlank c = false
    exact List.forall_mem_singleton.mpr (by decide)

/-- What follows a text in a type is told by what is written behind it. -/
theorem joinTexts_eq_of_joinAfter_eq {text : String} {rest others : List String}
    (htext : IsTypeText text) (hrest : ∀ s ∈ rest, IsTypeText s)
    (hothers : ∀ s ∈ others, IsTypeText s) (h : joinAfter text rest = joinAfter text others) :
    joinTexts rest = joinTexts others := by
  have hmark : bindsRight text = true → joinTexts rest = joinTexts others := by
    intro hbinds
    rwa [joinAfter_of_bindsRight hbinds, joinAfter_of_bindsRight hbinds] at h
  rcases htext with hword | rfl | rfl
  · have hspace : ∀ s : String, " " ++ s ≠ "" := by
      intro s hs
      exact absurd (String.append_eq_empty_iff.mp hs).1 (by decide)
    cases rest with
    | nil =>
      cases others with
      | nil => rfl
      | cons other others =>
        rw [joinAfter_of_isWord hword (hothers other List.mem_cons_self)] at h
        exact absurd h.symm (hspace _)
    | cons right rest =>
      rw [joinAfter_of_isWord hword (hrest right List.mem_cons_self)] at h
      cases others with
      | nil => exact absurd h (hspace _)
      | cons other others =>
        rw [joinAfter_of_isWord hword (hothers other List.mem_cons_self)] at h
        exact String.append_right_inj _ |>.mp h
  · exact hmark rfl
  · exact hmark rfl

theorem joinTexts_ne_nil {text : String} (h : IsTypeText text) (rest : List String) :
    (joinTexts (text :: rest)).toList ≠ [] := by
  rw [joinTexts, String.toList_append]
  exact List.append_ne_nil_of_left_ne_nil (toList_ne_nil_of_isTypeText h) _

/-- The text of a type has one space between words, also behind characters that are not blank. -/
theorem spaced_append_joinTexts {texts : List String} (h : ∀ s ∈ texts, IsTypeText s)
    {cs : List Char} (hcs : ∀ c ∈ cs, isBlank c = false) :
    spaced (cs ++ (joinTexts texts).toList) = cs ++ (joinTexts texts).toList := by
  induction texts generalizing cs with
  | nil =>
    rw [joinTexts, String.toList_empty, List.append_nil]
    exact spaced_of_forall hcs
  | cons text rest ih =>
    obtain ⟨htext, hrest⟩ := List.forall_mem_cons.mp h
    have hextend : ∀ c ∈ cs ++ text.toList, isBlank c = false := by
      intro c hc
      exact (List.mem_append.mp hc).elim (hcs c) (isBlank_of_isTypeText htext c)
    have hmark : bindsRight text = true → spaced (cs ++ (joinTexts (text :: rest)).toList) =
        cs ++ (joinTexts (text :: rest)).toList := by
      intro hbinds
      rw [joinTexts, joinAfter_of_bindsRight hbinds, String.toList_append, ← List.append_assoc]
      exact ih hrest hextend
    rcases htext with hword | rfl | rfl
    · cases rest with
      | nil =>
        rw [joinTexts, joinAfter, String.append_empty]
        exact spaced_of_forall hextend
      | cons right rest =>
        have hright := hrest right List.mem_cons_self
        have hne : cs ++ text.toList ≠ [] := List.append_ne_nil_of_right_ne_nil _ hword.ne_nil
        rw [joinTexts, joinAfter_of_isWord hword hright, String.toList_append,
          String.toList_append, ← List.append_assoc]
        have hbehind : spaced ([] ++ (joinTexts (right :: rest)).toList) =
            [] ++ (joinTexts (right :: rest)).toList := ih hrest (by simp)
        exact spaced_append_space hne hextend hbehind (joinTexts_ne_nil hright rest)
    · exact hmark rfl
    · exact hmark rfl

/-- The text of a type is normal as it is. -/
theorem normalizeType_joinTexts {texts : List String} (h : ∀ s ∈ texts, IsTypeText s) :
    normalizeType (joinTexts texts) = joinTexts texts := by
  have hspaced : spaced ([] ++ (joinTexts texts).toList) = [] ++ (joinTexts texts).toList :=
    spaced_append_joinTexts h (by simp)
  rw [List.nil_append] at hspaced
  rw [normalizeType, hspaced, String.ofList_toList]

/-! ## The tokens of a text -/

/-- The first word of a text, or its first character where it starts with none. -/
def firstText (cs : List Char) : List Char :=
  if cs.takeWhile isWordChar = [] then cs.take 1 else cs.takeWhile isWordChar

theorem firstText_append_of_isWord {w cs : List Char} (hw : IsWord w)
    (h : cs.takeWhile isWordChar = []) : firstText (w ++ cs) = w := by
  have htake : (w ++ cs).takeWhile isWordChar = w := by
    rw [List.takeWhile_append_of_pos hw.chars, h, List.append_nil]
  rw [firstText, htake, if_neg hw.ne_nil]

/-- The text of a type shows where its first token ends. -/
theorem firstText_joinTexts {text : String} {rest : List String}
    (h : ∀ s ∈ text :: rest, IsTypeText s) :
    firstText (joinTexts (text :: rest)).toList = text.toList := by
  obtain ⟨htext, hrest⟩ := List.forall_mem_cons.mp h
  rw [joinTexts, String.toList_append]
  rcases htext with hword | rfl | rfl
  · refine firstText_append_of_isWord hword ?_
    cases rest with
    | nil => rfl
    | cons right rest =>
      rw [joinAfter_of_isWord hword (hrest right List.mem_cons_self), String.toList_append]
      rfl
  · rfl
  · rfl

/-- The texts of a type can be read off its text. -/
theorem joinTexts_injective {texts others : List String} (h : ∀ s ∈ texts, IsTypeText s)
    (hothers : ∀ s ∈ others, IsTypeText s) (heq : joinTexts texts = joinTexts others) :
    texts = others := by
  have hempty : ∀ text rest, IsTypeText text → joinTexts (text :: rest) ≠ joinTexts [] := by
    intro text rest htext hnil
    exact joinTexts_ne_nil htext rest (String.toList_inj.mpr hnil)
  induction texts generalizing others with
  | nil =>
    cases others with
    | nil => rfl
    | cons other others =>
      exact absurd heq.symm (hempty other others (hothers other List.mem_cons_self))
  | cons text rest ih =>
    cases others with
    | nil => exact absurd heq (hempty text rest (h text List.mem_cons_self))
    | cons other others =>
      have htext : text = other := by
        rw [← String.toList_inj, ← firstText_joinTexts h, heq, firstText_joinTexts hothers]
      subst htext
      obtain ⟨htext, hrest⟩ := List.forall_mem_cons.mp h
      have hothers := (List.forall_mem_cons.mp hothers).2
      have hafter : joinAfter text rest = joinAfter text others :=
        (String.append_right_inj _).mp heq
      rw [ih hrest hothers (joinTexts_eq_of_joinAfter_eq htext hrest hothers hafter)]

/-! ## Return types of a source -/

namespace Span

/-- The texts of the tokens that make up the return type. -/
def returnTexts {ts : List Token} (span : Span ts) : List String :=
  (keptTokens span.head).map Token.text

variable {source other : String}

theorem isTypeText_of_mem_returnTexts (span : Span (significant (scan source))) :
    ∀ s ∈ span.returnTexts, IsTypeText s := by
  intro s hs
  obtain ⟨t, ht, rfl⟩ := List.mem_map.mp hs
  exact span.isTypeText_of_mem_keptTokens ht

/-- The return type of a source is normal. -/
theorem normalizeType_returnType (span : Span (significant (scan source))) :
    normalizeType span.signature.returnType = span.signature.returnType :=
  normalizeType_joinTexts span.isTypeText_of_mem_returnTexts

theorem returnType_eq_iff (span : Span (significant (scan source)))
    (span' : Span (significant (scan other))) :
    span.signature.returnType = span'.signature.returnType ↔
      span.returnTexts = span'.returnTexts :=
  ⟨joinTexts_injective span.isTypeText_of_mem_returnTexts span'.isTypeText_of_mem_returnTexts,
    congrArg joinTexts⟩

end Span

theorem exists_returnTypeMismatch_iff {config : Config} {decl defn : FunctionRecord} :
    (∃ f ∈ signatureFindings (config.comparing true) decl defn, f.kind = .returnTypeMismatch) ↔
      normalizeType decl.returnType ≠ normalizeType defn.returnType := by
  rw [signatureFindings_strict, ← returnDiffers_iff]
  constructor
  · rintro ⟨f, hf, hkind⟩
    rcases List.mem_append.mp hf with hf | hf
    · rw [returnFindings] at hf
      split at hf
      · next hdiffers => exact hdiffers
      · cases hf
    · obtain ⟨_, rfl⟩ := mem_strictParameterFindings hf
      cases hkind
  · intro hdiffers
    rw [returnFindings, if_pos hdiffers]
    exact ⟨_, List.mem_append_left _ List.mem_cons_self, rfl⟩

namespace FunctionRecord

/-- The functions of a source are the records of its spans.  For two of them the comparison of
return types comes down to the texts of their tokens: both types are normal, and they compare
equal just when the texts are the same.  The strict comparison reports a difference there and
nowhere else, and the default one accepts a pair just when these texts and the numbers of
parameters agree. -/
theorem returnTypes_exact (source other : String) :
    (∀ f, f ∈ extract (scan source) ↔
      ∃ span : Span (significant (scan source)), span.record (scan source) = f) ∧
    ∀ (span : Span (significant (scan source))) (span' : Span (significant (scan other))),
      let decl := span.record (scan source)
      let defn := span'.record (scan other)
      normalizeType decl.returnType = decl.returnType ∧
      normalizeType defn.returnType = defn.returnType ∧
      (returnDiffers decl defn = false ↔ span.returnTexts = span'.returnTexts) ∧
      ∀ config : Config,
        ((∃ f ∈ signatureFindings (config.comparing true) decl defn,
          f.kind = .returnTypeMismatch) ↔ span.returnTexts ≠ span'.returnTexts) ∧
        (signatureFindings (config.comparing false) decl defn = [] ↔
          span.returnTexts = span'.returnTexts ∧
            decl.parameters.length = defn.parameters.length) := by
  refine ⟨fun f => mem_extract_iff, ?_⟩
  intro span span' decl defn
  have hdecl : normalizeType decl.returnType = decl.returnType := span.normalizeType_returnType
  have hdefn : normalizeType defn.returnType = defn.returnType := span'.normalizeType_returnType
  have hequal : normalizeType decl.returnType = normalizeType defn.returnType ↔
      span.returnTexts = span'.returnTexts := by
    rw [hdecl, hdefn]
    exact span.returnType_eq_iff span'
  refine ⟨hdecl, hdefn, ?_, ?_⟩
  · rw [← Bool.not_eq_true, returnDiffers_iff, Decidable.not_not, hequal]
  · intro config
    refine ⟨?_, ?_⟩
    · rw [exists_returnTypeMismatch_iff, ne_eq, hequal]
    · rw [signatureFindings_loose, looseFindings_eq_nil_iff, ← hequal]
      exact ⟨fun h => ⟨h.1, h.2⟩, fun h => ⟨h.1, h.2⟩⟩

end FunctionRecord

end HeaderLint
