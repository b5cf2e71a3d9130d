import HeaderLint.Proofs.Token.Moved
import HeaderLint.Proofs.Token.Words

/-!
# Printed tokens

A text is printed with words and marks when it has their texts in order, with any number of spaces
between them (`Prints`).  No printed token goes on in what is printed behind it, as long as a word
is not directly before another one.  So a scan finds these tokens again, at places of its own
(`Prints.unplaced_scan`).
-/

namespace HeaderLint

open Text

/-! ## Printed texts -/

/-- The marks that are printed, with the kinds of their tokens. -/
def printedMarks : List (TokenKind × Char) :=
  [(.punctuation, '('), (.punctuation, ')'), (.punctuation, ','), (.punctuation, ';'),
   (.operator, '*'), (.operator, '.')]

namespace Token

/-- The token is a mark that is printed. -/
def IsPrintedMark (t : Token) : Prop := ∃ c, t.text.toList = [c] ∧ (t.kind, c) ∈ printedMarks

/-- The token is a word or a mark that is printed. -/
def IsPrinted (t : Token) : Prop := t.IsScannedWord ∨ t.IsPrintedMark

/-- The token without its place. -/
def unplaced (t : Token) : Token := t.moved fun _ => .start

end Token

/-- The text is printed with the tokens. -/
inductive Prints : List Char → List Token → Prop
  | nil : Prints [] []
  | space {cs : List Char} {ts : List Token} (rest : Prints cs ts) : Prints (' ' :: cs) ts
  | mark {t : Token} {c : Char} {cs : List Char} {ts : List Token} (text : t.text.toList = [c])
      (isMark : (t.kind, c) ∈ printedMarks) (rest : Prints cs ts) : Prints (c :: cs) (t :: ts)
  | word {t : Token} {cs : List Char} {ts : List Token} (isWord : t.IsScannedWord)
      (ends : ∀ d ∈ cs.head?, isWordChar d = false) (rest : Prints cs ts) :
      Prints (t.text.toList ++ cs) (t :: ts)

section
variable {t : Token} {cs : List Char} {ts : List Token}

theorem Prints.token (ht : t.IsPrinted)
    (ends : t.IsScannedWord → ∀ d ∈ cs.head?, isWordChar d = false) (h : Prints cs ts) :
    Prints (t.text.toList ++ cs) (t :: ts) := by
  rcases ht with hword | ⟨c, htext, hmark⟩
  · exact .word hword (ends hword) h
  · rw [htext]
    exact .mark htext hmark h

/-- In a source such a mark is one that is printed. -/
theorem Token.isPrintedMark_of_isSymbol {source : String} (ht : t ∈ scan source) {symbol : String}
    (hsymbol : t.isSymbol symbol = true) {c : Char} (hc : symbol.toList = [c])
    (hmem : c ∈ printedMarks.map Prod.snd) : t.IsPrintedMark := by
  have htables : ∀ m ∈ printedMarks,
      (m.2 ∈ operatorChars → (TokenKind.operator, m.2) ∈ printedMarks) ∧
        (m.2 ∈ punctuationChars → (TokenKind.punctuation, m.2) ∈ printedMarks) := by decide
  obtain ⟨m, hm, rfl⟩ := List.mem_map.mp hmem
  refine ⟨m.2, ?_, ?_⟩
  · have htext : t.text = symbol := beq_iff_eq.mp (Bool.and_eq_true_iff.mp hsymbol).2
    rw [htext, hc]
  · rcases Token.mem_of_isSymbol ht hsymbol hc with ⟨hkind, htable⟩ | ⟨hkind, htable⟩
    · rw [hkind]
      exact (htables m hm).1 htable
    · rw [hkind]
      exact (htables m hm).2 htable

end

/-! ## Reading a printed token -/

theorem Token.IsScannedWord.exists_cons {t : Token} (h : t.IsScannedWord) :
    ∃ c w, t.text.toList = c :: w ∧ isWordStart c = true := by
  cases htext : t.text.toList with
  | nil => exact absurd htext h.isWord.ne_nil
  | cons c w =>
    have hstarts := h.starts
    rw [htext] at hstarts
    exact ⟨c, w, rfl, hstarts⟩

/-- What is printed does not go on with a mark, nor make a full stop before it a number. -/
theorem Prints.head {cs : List Char} {ts : List Token} (h : Prints cs ts) :
    ∀ d ∈ cs.head?, d ≠ '=' ∧ d.isDigit = false := by
  cases h with
  | nil => simp
  | space rest =>
    rintro d ⟨⟩
    decide
  | mark text isMark rest =>
    have hmarks : ∀ m ∈ printedMarks, m.2 ≠ '=' ∧ m.2.isDigit = false := by decide
    rintro d ⟨⟩
    exact hmarks _ isMark
  | word isWord ends rest =>
    obtain ⟨c, w, htext, hstart⟩ := isWord.exists_cons
    rw [htext]
    rintro d ⟨⟩
    refine ⟨?_, Bool.eq_false_iff.mpr (Lexeme.not_isDigit_of_isWordStart hstart)⟩
    rintro rfl
    exact absurd hstart (by decide)

/-- A mark ends before what is printed. -/
theorem read_printedMark {kind : TokenKind} {c : Char} (h : (kind, c) ∈ printedMarks)
    {cs : List Char} (hcs : ∀ d ∈ cs.head?, d ≠ '=' ∧ d.isDigit = false) (lineStart : Bool) :
    Lexeme.read lineStart c cs = ⟨kind, []⟩ := by
  have hrules : ∀ m ∈ printedMarks, m.2 ≠ '/' ∧ m.2 ≠ '#' ∧ m.2 ≠ '"' ∧ m.2 ≠ '\'' ∧
      m.2.isDigit = false ∧ isWordStart m.2 = false := by decide
  have hpairs : ∀ m ∈ printedMarks, ∀ p ∈ pairOperators, p.1 = m.2 → p.2 = '=' := by decide
  have htables : ∀ m ∈ printedMarks, m.1 = if operatorChars.contains m.2 then .operator
      else if punctuationChars.contains m.2 then .punctuation else .unknown := by decide
  obtain ⟨hslash, hsign, hquote, hapostrophe, hdigit, hword⟩ := hrules _ h
  have hnumber : ¬Lexeme.StartsNumber c cs := by
    rintro (hc | ⟨-, hnext⟩)
    · rw [hdigit] at hc
      cases hc
    · obtain ⟨d, hd, hnext⟩ := (Option.any_eq_true _ _).mp hnext
      rw [(hcs d hd).2] at hnext
      cases hnext
  have hread : Lexeme.read lineStart c cs = Lexeme.mark c cs :=
    Lexeme.Reads.read_eq (.mark ⟨fun hc => hslash hc.1, fun hc => hslash hc.1,
      fun hc => hsign hc.1, hquote, hapostrophe, hnumber, hword⟩)
  have hpair : (cs.head?.filter fun d => pairOperators.contains (c, d)) = none := by
    rw [Option.filter_eq_none_iff]
    intro d hd hcontains
    exact (hcs d hd).1 (hpairs _ h _ (List.contains_iff_mem.mp hcontains) rfl)
  have hkind := htables _ h
  dsimp only at hkind
  rw [hread, Lexeme.mark, hpair, hkind]
  dsimp only
  split
  · rfl
  · split <;> rfl

/-- A word ends before what is no part of it. -/
theorem read_scannedWord {t : Token} (h : t.IsScannedWord) {c : Char} {w : List Char}
    (htext : t.text.toList = c :: w) {cs : List Char} (hcs : ∀ d ∈ cs.head?, isWordChar d = false)
    (lineStart : Bool) : Lexeme.read lineStart c (w ++ cs) = ⟨t.kind, w⟩ := by
  have hstart := h.starts
  have hchars := h.isWord.chars
  rw [htext] at hstart hchars
  have htail : wordTail (w ++ cs) = w := by
    have hnil : cs.takeWhile isWordChar = [] := by
      cases cs with
      | nil => rfl
      | cons d cs => exact List.takeWhile_cons_of_neg (by simp [hcs d rfl])
    rw [wordTail, List.takeWhile_append_of_pos (List.forall_mem_cons.mp hchars).2, hnil,
      List.append_nil]
  have hkind := h.kind_eq
  rw [← String.ofList_toList (s := t.text), htext] at hkind
  rw [(Lexeme.Reads.word hstart).read_eq, Lexeme.word, htail, hkind, isKeyword]
  simp only [List.contains_iff_mem]

/-! ## Scanning -/

/-- A scan that comes to a lexeme with the text of a token goes on behind it. -/
theorem Token.significant_scanFrom_lexeme {t : Token} {c : Char} {tail cs : List Char}
    (htext : t.text.toList = c :: tail) (hsolid : isBlank c = false)
    (hsignificant : t.kind.isSignificant = true) {lineStart : Bool}
    (hread : Lexeme.read lineStart c (tail ++ cs) = ⟨t.kind, tail⟩) (p : Position) :
    ∃ q lineStart', (significant (scanFrom p lineStart (c :: (tail ++ cs)))).map unplaced =
      t.unplaced :: (significant (scanFrom q lineStart' cs)).map unplaced := by
  have hnewline : c ≠ '\n' := by
    rintro rfl
    exact absurd hsolid (by decide)
  have hdirective : t.kind ≠ .directive := by
    intro hkind
    rw [hkind] at hsignificant
    cases hsignificant
  have hsame : (⟨t.kind, tail⟩ : Lexeme).text c = t.text := by
    rw [← String.toList_inj, Lexeme.toList_text_of_ne_directive hdirective, htext]
  have hkept : ∀ ts : List Token,
      significant (⟨t.kind, t.text, p⟩ :: ts) = ⟨t.kind, t.text, p⟩ :: significant ts :=
    fun ts => List.filter_cons_of_pos hsignificant
  refine ⟨p.advance (c :: tail), lineStart && t.kind.isComment, ?_⟩
  rw [scanFrom_lexeme p lineStart (tail ++ cs) hnewline hsolid, hread, hsame, hkept,
    List.drop_left, List.map_cons]
  rfl

/-- A scan of a printed text finds the tokens that it is printed with. -/
theorem Prints.unplaced_scanFrom {cs : List Char} {ts : List Token} (h : Prints cs ts)
    (p : Position) (lineStart : Bool) :
    (Token.significant (Token.scanFrom p lineStart cs)).map Token.unplaced =
      ts.map Token.unplaced := by
  induction h generalizing p lineStart with
  | nil =>
    rw [Token.scanFrom_nil]
    rfl
  | space _ ih =>
    rw [Token.scanFrom_blank _ _ _ (by decide) (by decide)]
    exact ih _ _
  | @mark t c cs ts text isMark rest ih =>
    have hmarks : ∀ m ∈ printedMarks, isBlank m.2 = false ∧ m.1.isSignificant = true := by decide
    obtain ⟨hsolid, hsignificant⟩ := hmarks _ isMark
    obtain ⟨q, lineStart', hscan⟩ := Token.significant_scanFrom_lexeme text hsolid hsignificant
      (read_printedMark isMark rest.head lineStart) p
    rw [List.nil_append] at hscan
    rw [hscan, ih, List.map_cons]
  | @word t cs ts isWord ends rest ih =>
    obtain ⟨c, w, htext, hstart⟩ := isWord.exists_cons
    have hsolid := isBlank_of_isWordChar (Lexeme.isWordChar_of_isWordStart hstart)
    have hsignificant : t.kind.isSignificant = true := by
      rw [isWord.kind_eq]
      split <;> rfl
    obtain ⟨q, lineStart', hscan⟩ := Token.significant_scanFrom_lexeme htext hsolid hsignificant
      (read_scannedWord isWord htext ends lineStart) p
    rw [htext, List.cons_append, hscan, ih, List.map_cons]

end HeaderLint
