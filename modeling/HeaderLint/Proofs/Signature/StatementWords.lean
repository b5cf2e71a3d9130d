import HeaderLint.Proofs.Signature.Spans
import HeaderLint.Proofs.Signature.TypeWords
import HeaderLint.Proofs.Token.Words

/-!
# Statement words in a head

A word such as `typedef` or `return` starts no signature, and only the first token of a head is
asked about it.  Behind the first token such a word is a word of the return type like any other:
it is kept (`isStatementWord_mem_keptTokens_iff`), and so it shows in the text of the type.

In a source the return types show exactly these words, since the words of a return type are the
words among its tokens (`Span.mem_wordsOf_returnType_iff`).  So no return type has such a word
just when no head has one behind its first token (`FunctionRecord.extract_statementWords_iff`).
-/

namespace HeaderLint

open Token (scan significant)

/-! ## Heads -/

theorem keyword_of_isStatementWord {t : Token} (h : isStatementWord t = true) :
    t.kind = .keyword ∧ t.text ∈ statementWords := by
  obtain ⟨hkind, htext⟩ := Bool.and_eq_true_iff.mp h
  exact ⟨beq_iff_eq.mp hkind, List.contains_iff_mem.mp htext⟩

/-- A statement word is kept in the return type. -/
theorem isStatementWord_mem_keptTokens_iff {head : List Token} {t : Token}
    (h : isStatementWord t = true) : t ∈ keptTokens head ↔ t ∈ head := by
  obtain ⟨hkind, htext⟩ := keyword_of_isStatementWord h
  have hdisjoint : ∀ word ∈ statementWords, storageWords.contains word = false := by decide
  have htype : isTypeToken t = true := by
    rw [isTypeToken, hkind]
    rfl
  have hstorage : isStorageWord t = false := by
    rw [isStorageWord, hdisjoint _ htext, Bool.and_false]
  rw [keptTokens, List.mem_filter, htype, hstorage]
  exact and_iff_left rfl

/-- A token of a return type is a word, a star or an ampersand. -/
theorem kind_of_mem_keptTokens {head : List Token} {t : Token} (ht : t ∈ keptTokens head) :
    (t.kind = .keyword ∨ t.kind = .identifier) ∨ t.text = "*" ∨ t.text = "&" := by
  have htype := (Bool.and_eq_true_iff.mp (List.mem_filter.mp ht).2).1
  simp only [isTypeToken, Bool.or_eq_true, Bool.and_eq_true, beq_iff_eq] at htype
  exact htype.imp_right And.right

/-- A statement word of a head stands behind its first token. -/
theorem StartsSignature.isStatementWord_mem_tail_iff {name : Token} {head : List Token}
    (hstarts : StartsSignature name head) {t : Token} (h : isStatementWord t = true) :
    t ∈ head.tail ↔ t ∈ head := by
  refine ⟨List.mem_of_mem_tail, ?_⟩
  intro ht
  have hfirst := hstarts.notStatement
  cases head with
  | nil => cases ht
  | cons u head =>
    rcases List.mem_cons.mp ht with rfl | ht
    · rw [List.head?_cons, Option.any_some, h] at hfirst
      cases hfirst
    · exact ht

/-! ## Return types -/

namespace Span

theorem mem_of_mem_head {ts : List Token} (span : Span ts) {t : Token} (ht : t ∈ span.head) :
    t ∈ ts :=
  List.mem_of_mem_take (List.mem_of_mem_drop ht)

/-- The tokens of a return type in a source are words, stars and ampersands. -/
theorem isTypeText_of_mem_keptTokens {source : String} (span : Span (significant (scan source)))
    {t : Token} (ht : t ∈ keptTokens span.head) : IsTypeText t.text := by
  have hhead := (List.mem_filter.mp ht).1
  have hscan : t ∈ scan source := (List.mem_filter.mp (span.mem_of_mem_head hhead)).1
  exact (kind_of_mem_keptTokens ht).imp_left fun hword =>
    (Token.isWord_of_mem_scan hscan hword).1

/-- A return type in a source has a statement word just when the head has that keyword behind its
first token. -/
theorem mem_wordsOf_returnType_iff {source : String} (span : Span (significant (scan source)))
    {word : String} (hword : word ∈ statementWords) :
    word.toList ∈ wordsOf span.signature.returnType.toList ↔
      ∃ t ∈ span.head.tail, t.isKeyword word = true := by
  have hwords : ∀ word ∈ statementWords, DocLine.IsWord word.toList ∧ word ∈ keywords := by decide
  have htexts : ∀ s ∈ (keptTokens span.head).map Token.text, IsTypeText s := by
    intro s hs
    obtain ⟨t, ht, rfl⟩ := List.mem_map.mp hs
    exact span.isTypeText_of_mem_keptTokens ht
  have hkeyword : ∀ {t : Token}, t.isKeyword word = true → isStatementWord t = true := by
    intro t ht
    obtain ⟨hkind, htext⟩ := Bool.and_eq_true_iff.mp ht
    rw [isStatementWord, hkind, beq_iff_eq.mp htext, List.contains_iff_mem.mpr hword]
    rfl
  show word.toList ∈ wordsOf (joinTexts ((keptTokens span.head).map Token.text)).toList ↔ _
  rw [wordsOf_joinTexts htexts, toList_mem_wordTexts_iff (hwords word hword).1, List.mem_map]
  constructor
  · rintro ⟨t, ht, rfl⟩
    have hhead := (List.mem_filter.mp ht).1
    have hscan : t ∈ scan source := (List.mem_filter.mp (span.mem_of_mem_head hhead)).1
    have hisKeyword : t.isKeyword t.text = true := by
      rcases kind_of_mem_keptTokens ht with hkind | hmark
      · have htable := (Token.isWord_of_mem_scan hscan hkind).2.mpr (hwords _ hword).2
        exact Bool.and_eq_true_iff.mpr ⟨beq_iff_eq.mpr htable, beq_self_eq_true _⟩
      · rcases hmark with hmark | hmark <;> rw [hmark] at hword <;> exact absurd hword (by decide)
    exact ⟨t, (span.starts.isStatementWord_mem_tail_iff (hkeyword hisKeyword)).mpr hhead,
      hisKeyword⟩
  · rintro ⟨t, ht, hisKeyword⟩
    refine ⟨t, (isStatementWord_mem_keptTokens_iff (hkeyword hisKeyword)).mpr ?_, ?_⟩
    · exact List.mem_of_mem_tail ht
    · exact beq_iff_eq.mp (Bool.and_eq_true_iff.mp hisKeyword).2

end Span

namespace FunctionRecord

/-- The functions of a list of tokens are the records of its spans, and the first token of a head
is no statement word, so the statement words of a head are those behind its first token.  Where
the tokens are those of a source, no return type has a statement word if, and only if, no head has
one behind its first token. -/
theorem extract_statementWords_iff (tokens : List Token) :
    (∃ spans : List (Span (significant tokens)),
      extract tokens = spans.map (Span.record tokens) ∧ (∀ span, span ∈ spans) ∧
      ∀ span ∈ spans, (∀ t ∈ span.head.head?, isStatementWord t = false) ∧
        ((∃ t ∈ span.head, isStatementWord t = true) ↔
          ∃ t ∈ span.head.tail, isStatementWord t = true)) ∧
    ∀ source : String, tokens = scan source →
      ((∀ f ∈ extract tokens, ∀ word ∈ statementWords,
        word.toList ∉ wordsOf f.returnType.toList) ↔
      ∀ span : Span (significant tokens), ∀ t ∈ span.head.tail, isStatementWord t = false) := by
  obtain ⟨spans, -, hall, hsignatures⟩ := Signature.exists_spans_extract tokens
  have hextract := extract_eq_map_record hsignatures
  constructor
  · refine ⟨spans, hextract, hall, ?_⟩
    intro span _
    refine ⟨?_, ?_⟩
    · intro t ht
      have hfirst := span.starts.notStatement
      rw [show (slice _ _ _).head? = some t from ht, Option.any_some] at hfirst
      exact hfirst
    · refine exists_congr fun t => and_congr_left fun h => ?_
      exact (span.starts.isStatementWord_mem_tail_iff h).symm
  · rintro source rfl
    rw [hextract]
    constructor
    · intro h span t ht
      rw [← Bool.not_eq_true]
      intro hstatement
      obtain ⟨hkind, htext⟩ := keyword_of_isStatementWord hstatement
      refine h _ (List.mem_map_of_mem (hall span)) t.text htext
        ((span.mem_wordsOf_returnType_iff htext).mpr ⟨t, ht, ?_⟩)
      exact Bool.and_eq_true_iff.mpr ⟨beq_iff_eq.mpr hkind, beq_self_eq_true _⟩
    · intro h f hf word hword hmem
      obtain ⟨span, -, rfl⟩ := List.mem_map.mp hf
      obtain ⟨t, ht, hkeyword⟩ := (span.mem_wordsOf_returnType_iff hword).mp hmem
      obtain ⟨hkind, htext⟩ := Bool.and_eq_true_iff.mp hkeyword
      have hnone := h span t ht
      rw [isStatementWord, hkind, beq_iff_eq.mp htext, List.contains_iff_mem.mpr hword] at hnone
      cases hnone

/-- A linkage specification before `typedef` hides it. -/
theorem extract_statementWords_linkage :
    ¬∀ f ∈ extract (scan "extern \"C\" typedef void callback(int);\n"), ∀ word ∈ statementWords,
      word.toList ∉ wordsOf f.returnType.toList := by
  decide +kernel

end FunctionRecord

end HeaderLint
