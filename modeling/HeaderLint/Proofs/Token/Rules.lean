import HeaderLint.Token.Lexeme

/-!
# The rules of a lexeme

`Lexeme.read` tries its rules in order.  `Lexeme.Reads` has one constructor for each
rule, with the condition under which the rule applies and no mention of the rules
before it: except for a mark, the first characters tell the rules apart.
The two agree (`Lexeme.reads_read`, `Lexeme.Reads.read_eq`).

So a fact about lexemes is proved by cases on the rules, and a lexeme is found by
naming its rule.  The kind of a lexeme tells its rule too (`Lexeme.ruleOf_of_kind`).
-/

namespace HeaderLint

open Text

/-! ## The rest of a line -/

theorem newline_not_mem_restOfLine (cs : List Char) : '\n' ∉ restOfLine cs := by
  intro h
  simpa using List.all_eq_true.mp List.all_takeWhile '\n' h

theorem restOfLine_append_of_newline_not_mem {cs : List Char} (h : '\n' ∉ cs) (ds : List Char) :
    restOfLine (cs ++ ds) = cs ++ restOfLine ds := by
  refine List.takeWhile_append_of_pos fun c hc => bne_iff_ne.mpr ?_
  rintro rfl
  exact h hc

theorem restOfLine_eq_nil_iff {cs : List Char} :
    restOfLine cs = [] ↔ cs = [] ∨ cs.head? = some '\n' := by
  cases cs with
  | nil => simp [restOfLine]
  | cons c cs =>
    by_cases h : c = '\n'
    · simp [restOfLine, h]
    · simp [restOfLine, h]

/-- Behind the rest of a line the line ends. -/
theorem drop_restOfLine (cs : List Char) :
    cs.drop (restOfLine cs).length = [] ∨ (cs.drop (restOfLine cs).length).head? = some '\n' := by
  have hcut : restOfLine cs ++ cs.drop (restOfLine cs).length = cs :=
    List.prefix_iff_eq_append.mp (List.takeWhile_prefix _)
  have h := congrArg restOfLine hcut
  rw [restOfLine_append_of_newline_not_mem (newline_not_mem_restOfLine cs),
    List.append_right_eq_self] at h
  exact restOfLine_eq_nil_iff.mp h

/-! ## One rule for each kind of lexeme -/

namespace Lexeme

/-- A digit, or a full stop before a digit, starts a number. -/
def StartsNumber (c : Char) (cs : List Char) : Prop :=
  c.isDigit = true ∨ c = '.' ∧ cs.head?.any Char.isDigit = true

theorem startsNumber_iff {c : Char} {cs : List Char} :
    StartsNumber c cs ↔ c.isDigit = true ∨ c = '.' ∧ cs.head?.any Char.isDigit = true := Iff.rfl

/-- No rule before the last applies. -/
structure StartsMark (lineStart : Bool) (c : Char) (cs : List Char) : Prop where
  /-- No line comment starts. -/
  not_lineComment : ¬(c = '/' ∧ cs.head? = some '/')
  /-- No block comment starts. -/
  not_blockComment : ¬(c = '/' ∧ cs.head? = some '*')
  /-- No directive starts. -/
  not_directive : ¬(c = '#' ∧ lineStart = true)
  /-- No string starts. -/
  ne_quote : c ≠ '"'
  /-- No character literal starts. -/
  ne_apostrophe : c ≠ '\''
  /-- No number starts. -/
  not_number : ¬StartsNumber c cs
  /-- No word starts. -/
  not_word : isWordStart c = false

/-- The lexeme at the front of a text, by the rule that gives it. -/
inductive Reads (lineStart : Bool) (c : Char) (cs : List Char) : Lexeme → Prop where
  | lineComment (slash : c = '/') (next : cs.head? = some '/') :
      Reads lineStart c cs ⟨.lineComment, restOfLine cs⟩
  | blockComment (slash : c = '/') (next : cs.head? = some '*') :
      Reads lineStart c cs ⟨.blockComment, '*' :: blockCommentTail cs.tail⟩
  | directive (sign : c = '#') (start : lineStart = true) :
      Reads lineStart c cs ⟨.directive, restOfLine cs⟩
  | string (quote : c = '"') : Reads lineStart c cs ⟨.stringLiteral, literalTail '"' cs⟩
  | character (quote : c = '\'') : Reads lineStart c cs ⟨.charLiteral, literalTail '\'' cs⟩
  | number (starts : StartsNumber c cs) : Reads lineStart c cs ⟨.number, numberTail c cs⟩
  | word (starts : isWordStart c = true) : Reads lineStart c cs (word c cs)
  | mark (starts : StartsMark lineStart c cs) : Reads lineStart c cs (mark c cs)

variable {lineStart : Bool} {c : Char} {cs : List Char}

/-- Every text is read by some rule. -/
theorem reads_read (lineStart : Bool) (c : Char) (cs : List Char) :
    Reads lineStart c cs (read lineStart c cs) := by
  rw [read]
  split
  · next h => exact .lineComment h.1 h.2
  split
  · next h => exact .blockComment h.1 h.2
  split
  · next h => exact .directive h.1 h.2
  split
  · next h => exact .string h
  split
  · next h => exact .character h
  split
  · next h => exact .number h
  split
  · next h => exact .word h
  · next h₁ h₂ h₃ h₄ h₅ h₆ h₇ => exact .mark ⟨h₁, h₂, h₃, h₄, h₅, h₆, Bool.eq_false_iff.mpr h₇⟩

/-- The first character of a number is no other rule's. -/
theorem StartsNumber.ne {d : Char} (h : StartsNumber c cs)
    (hd : d = '/' ∨ d = '#' ∨ d = '"' ∨ d = '\'') : c ≠ d := by
  rintro rfl
  rcases h with h | h
  · rcases hd with rfl | rfl | rfl | rfl <;> exact absurd h (by decide)
  · rcases hd with rfl | rfl | rfl | rfl <;> exact absurd h.1 (by decide)

/-- The first character of a word is no other rule's. -/
theorem ne_of_isWordStart {d : Char} (h : isWordStart c = true)
    (hd : d = '/' ∨ d = '#' ∨ d = '"' ∨ d = '\'' ∨ d = '.') : c ≠ d := by
  rintro rfl
  rcases hd with rfl | rfl | rfl | rfl | rfl <;> exact absurd h (by decide)

theorem isWordChar_of_isWordStart (h : isWordStart c = true) : isWordChar c = true := by
  rw [isWordStart, Bool.or_eq_true] at h
  rw [isWordChar, Bool.or_eq_true]
  exact h.imp_left fun halpha => by rw [Char.isAlphanum, halpha, Bool.true_or]

theorem not_isDigit_of_isWordStart (h : isWordStart c = true) : ¬c.isDigit = true := by
  intro hd
  rw [isWordStart, Bool.or_eq_true, beq_iff_eq] at h
  rcases h with h | rfl
  · delta Char.isAlpha Char.isUpper Char.isLower at h
    delta Char.isDigit at hd
    simp only [Bool.or_eq_true, Bool.and_eq_true, decide_eq_true_eq, ge_iff_le,
      UInt32.le_iff_toNat_le] at h hd
    rcases h with h | h <;> exact absurd (Nat.le_trans h.1 hd.2) (by decide)
  · exact absurd hd (by decide)

theorem not_startsNumber_of_isWordStart (h : isWordStart c = true) : ¬StartsNumber c cs := by
  rintro (hd | hd)
  · exact not_isDigit_of_isWordStart h hd
  · exact ne_of_isWordStart h (by simp) hd.1

/-- A lexeme is the one that its rule gives. -/
theorem Reads.read_eq {l : Lexeme} (h : Reads lineStart c cs l) : read lineStart c cs = l := by
  rw [read]
  cases h with
  | lineComment slash next => rw [if_pos ⟨slash, next⟩]
  | blockComment slash next =>
    rw [if_neg (by simp [next]), if_pos ⟨slash, next⟩]
  | directive sign start => simp [sign, start]
  | string quote => simp [quote]
  | character quote => simp [quote]
  | number starts =>
    rw [if_neg fun h => starts.ne (by simp) h.1, if_neg fun h => starts.ne (by simp) h.1,
      if_neg fun h => starts.ne (by simp) h.1, if_neg (starts.ne (by simp)),
      if_neg (starts.ne (by simp)), if_pos (startsNumber_iff.mp starts)]
  | word starts =>
    rw [if_neg fun h => ne_of_isWordStart starts (by simp) h.1,
      if_neg fun h => ne_of_isWordStart starts (by simp) h.1,
      if_neg fun h => ne_of_isWordStart starts (by simp) h.1,
      if_neg (ne_of_isWordStart starts (by simp)), if_neg (ne_of_isWordStart starts (by simp)),
      if_neg (mt startsNumber_iff.mpr (not_startsNumber_of_isWordStart starts)), if_pos starts]
  | mark starts =>
    rw [if_neg starts.not_lineComment, if_neg starts.not_blockComment, if_neg starts.not_directive,
      if_neg starts.ne_quote, if_neg starts.ne_apostrophe,
      if_neg (mt startsNumber_iff.mpr starts.not_number),
      if_neg (Bool.eq_false_iff.mp starts.not_word)]

/-! ## Kinds -/

theorem kind_word (c : Char) (cs : List Char) :
    (word c cs).kind = .keyword ∨ (word c cs).kind = .identifier := by
  rw [word]
  split
  · exact Or.inl rfl
  · exact Or.inr rfl

theorem kind_mark (c : Char) (cs : List Char) :
    (Lexeme.mark c cs).kind = .operator ∨ (Lexeme.mark c cs).kind = .punctuation ∨
      (Lexeme.mark c cs).kind = .unknown := by
  rw [Lexeme.mark]
  split
  · exact Or.inl rfl
  · split
    · exact Or.inl rfl
    · split
      · exact Or.inr (Or.inl rfl)
      · exact Or.inr (Or.inr rfl)

/-- The rule that gives the lexemes of a kind, with what it asks of the text. -/
def RuleOf (lineStart : Bool) (c : Char) (cs : List Char) : TokenKind → Prop
  | .lineComment =>
    c = '/' ∧ cs.head? = some '/' ∧ read lineStart c cs = ⟨.lineComment, restOfLine cs⟩
  | .blockComment =>
    c = '/' ∧ cs.head? = some '*' ∧
      read lineStart c cs = ⟨.blockComment, '*' :: blockCommentTail cs.tail⟩
  | .directive => c = '#' ∧ lineStart = true ∧ read lineStart c cs = ⟨.directive, restOfLine cs⟩
  | .stringLiteral => c = '"' ∧ read lineStart c cs = ⟨.stringLiteral, literalTail '"' cs⟩
  | .charLiteral => c = '\'' ∧ read lineStart c cs = ⟨.charLiteral, literalTail '\'' cs⟩
  | .number => StartsNumber c cs ∧ read lineStart c cs = ⟨.number, numberTail c cs⟩
  | .keyword | .identifier => isWordStart c = true ∧ read lineStart c cs = word c cs
  | .operator | .punctuation | .unknown =>
    StartsMark lineStart c cs ∧ read lineStart c cs = Lexeme.mark c cs
  | .newline | .endOfFile => False

theorem Reads.ruleOf {l : Lexeme} (h : Reads lineStart c cs l) : RuleOf lineStart c cs l.kind := by
  have hread := h.read_eq
  cases h with
  | lineComment slash next => exact ⟨slash, next, hread⟩
  | blockComment slash next => exact ⟨slash, next, hread⟩
  | directive sign start => exact ⟨sign, start, hread⟩
  | string quote => exact ⟨quote, hread⟩
  | character quote => exact ⟨quote, hread⟩
  | number starts => exact ⟨starts, hread⟩
  | word starts => rcases kind_word c cs with hk | hk <;> rw [hk] <;> exact ⟨starts, hread⟩
  | mark starts => rcases kind_mark c cs with hk | hk | hk <;> rw [hk] <;> exact ⟨starts, hread⟩

/-- The kind of a lexeme tells its rule. -/
theorem ruleOf_of_kind {kind : TokenKind} (h : (read lineStart c cs).kind = kind) :
    RuleOf lineStart c cs kind :=
  h ▸ (reads_read lineStart c cs).ruleOf

/-- A lexeme is no line feed and never the end of the text. -/
theorem kind_read_ne (lineStart : Bool) (c : Char) (cs : List Char) :
    (read lineStart c cs).kind ≠ .newline ∧ (read lineStart c cs).kind ≠ .endOfFile :=
  ⟨fun h => ruleOf_of_kind h, fun h => ruleOf_of_kind h⟩

end Lexeme

end HeaderLint
