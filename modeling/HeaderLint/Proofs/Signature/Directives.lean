import HeaderLint.Proofs.DocComment.Nearest
import HeaderLint.Proofs.Token.LineStart

/-!
# Directives

A token that starts with a number sign is a directive if all tokens since the last line feed are
comments, and the operator otherwise (`Token.scan_directives`).  A line feed inside a comment or a
literal is no token, so no directive starts behind it that would not start in front of the comment
or the literal.

A directive takes the rest of its line, and the next token stands behind the line.  So nothing on
the line is a token of its own.  Nor does anything look into the directive: its text does not
matter to the functions that are found, nor to their documentation
(`FunctionRecord.extract_withText`).
-/

namespace HeaderLint

open Text

/-- The token with another text. -/
def Token.withText (t : Token) (text : String) : Token := { t with text := text }

/-! ## Directives and documentation -/

namespace DocComment

variable {t : Token}

/-- A run of line comments does not go on behind a directive. -/
theorem runAbove_append_cons (h : t.kind = .directive) (line : Nat) (above further : List Token) :
    runAbove line (above ++ t :: further) = runAbove line above := by
  induction above generalizing line with
  | nil => simp [runAbove, h]
  | cons u above ih => simp only [List.cons_append, runAbove, ih]

/-- Of the tokens on both sides of a directive those behind it are searched first. -/
theorem find?_append_cons (h : t.kind = .directive) (ts us : List Token) (place : Position) :
    find? (ts ++ t :: us) place = (find? us place).or (find? ts place) := by
  have hcomment : t.kind.isComment = false := by
    rw [h]
    rfl
  rw [find?, find?, List.reverse_append, List.reverse_cons, List.append_assoc,
    List.dropWhile_append]
  cases us.reverse.dropWhile fun u => !(u.kind.isComment && u.position.before place) with
  | nil =>
    rw [List.isEmpty_nil, if_pos rfl, List.singleton_append,
      List.dropWhile_cons_of_pos (by rw [hcomment]; rfl)]
    rfl
  | cons last above =>
    rw [List.isEmpty_cons, if_neg Bool.false_ne_true, List.cons_append, List.singleton_append]
    simp only [endingWith, runAbove_append_cons h]
    rfl

end DocComment

theorem Signature.withDocumentation_withText {t : Token} (h : t.kind = .directive) (s : Signature)
    (ts us : List Token) (text : String) :
    s.withDocumentation (ts ++ t.withText text :: us) = s.withDocumentation (ts ++ t :: us) := by
  have htext : (t.withText text).kind = .directive := h
  rw [withDocumentation, withDocumentation, DocComment.documenting?, DocComment.documenting?,
    DocComment.find?_append_cons h, DocComment.find?_append_cons htext]

/-- The text of a directive does not matter to the functions of a list of tokens. -/
theorem FunctionRecord.extract_withText {t : Token} (h : t.kind = .directive) (ts us : List Token)
    (text : String) :
    FunctionRecord.extract (ts ++ t.withText text :: us) =
      FunctionRecord.extract (ts ++ t :: us) := by
  have hskip : ∀ u : Token, u.kind = .directive →
      Token.significant (ts ++ u :: us) = Token.significant ts ++ Token.significant us := by
    intro u hu
    simp [Token.significant, hu, TokenKind.isSignificant]
  have hsame : Token.significant (ts ++ t.withText text :: us) =
      Token.significant (ts ++ t :: us) := by
    rw [hskip (t.withText text) h, hskip t h]
  rw [extract, extract, Signature.extract, Signature.extract, hsame]
  exact List.map_congr_left fun s _ => s.withDocumentation_withText h ts us text

/-! ## Directives in a source -/

namespace Token

/-- The token has the rest of its line for itself. -/
structure HasLine {source : String} {t : Token} (place : Place source t) (after : List Token) :
    Prop where
  /-- The text is the rest of the line without the blanks at its end. -/
  text : t.text.toList = trimEnd (restOfLine place.rest)
  /-- The next token is the line feed at the end of the line, or the end of the source. -/
  next : ∃ u us, after = u :: us ∧ (u.kind = .newline ∨ u.kind = .endOfFile) ∧
    u.position = .after (place.before ++ restOfLine place.rest)

theorem CoversLine.hasLine {source : String} {t : Token} {place : Place source t}
    {after : List Token} (h : CoversLine place after) : HasLine place after := by
  refine ⟨h.text, ?_⟩
  rw [h.after]
  rcases drop_restOfLine place.rest with hend | hnewline
  · rw [hend, scanFrom_nil]
    exact ⟨_, _, rfl, .inr rfl, rfl⟩
  · obtain ⟨cs, hcs⟩ := List.head?_eq_some_iff.mp hnewline
    rw [hcs, scanFrom_newline]
    exact ⟨_, _, rfl, .inl rfl, rfl⟩

/-- A directive starts with a number sign. -/
theorem IsReadOff.head?_of_directive {t : Token} {rest : List Char} (h : t.IsReadOff rest)
    (hkind : t.kind = .directive) : t.text.toList.head? = some '#' := by
  cases h with
  | endOfFile kind => cases kind.symm.trans hkind
  | newline kind => cases kind.symm.trans hkind
  | lexeme lineStart cs solid kind text =>
    obtain ⟨rfl, -⟩ := Lexeme.ruleOf_of_kind (kind.symm.trans hkind)
    rw [text, Lexeme.head?_toList_text solid]

/-- A token that starts with a number sign is a directive just where all tokens since the last line
feed are comments, and the operator elsewhere.  Tokens that are no line feeds may hold some: they
make no difference to what the number sign behind them is.  A directive has its line for itself, and
its text does not matter to the functions that are found. -/
theorem scan_directives {source : String} {before after : List Token} {t : Token}
    (hscan : scan source = before ++ t :: after) :
    (t.text.toList.head? = some '#' →
      (t.kind = .directive ↔ ∀ u ∈ sinceNewline before, u.kind.isComment = true) ∧
      (t.kind ≠ .directive → t.kind = .operator ∧ t.text = "#") ∧
      ∀ earlier us, before = earlier ++ us → (∀ u ∈ us, u.kind ≠ .newline) →
        (t.kind = .directive ↔ (∀ u ∈ us, u.kind.isComment = true) ∧
          ∀ u ∈ sinceNewline earlier, u.kind.isComment = true)) ∧
    (t.kind = .directive →
      (∃ place : Place source t, HasLine place after) ∧
      ∀ text, FunctionRecord.extract (before ++ t.withText text :: after) =
        FunctionRecord.extract (scan source)) := by
  constructor
  · intro hsign
    have hcases := coversLine_or_sign hscan hsign
    have hkind : t.kind = .directive ↔ startsLine true before = true := by
      rcases hcases with ⟨hstart, _, hcovers⟩ | ⟨hstart, hoperator, -⟩
      · rw [hcovers.kind, hstart]
        simp
      · rw [hoperator, hstart]
        simp
    refine ⟨hkind.trans (startsLine_iff before), ?_, ?_⟩
    · intro hother
      rcases hcases with ⟨-, _, hcovers⟩ | ⟨-, hoperator⟩
      · exact absurd hcovers.kind hother
      · exact hoperator
    · rintro earlier us rfl hus
      rw [hkind, startsLine_iff, sinceNewline_append hus, List.forall_mem_append]
      simp only [List.mem_reverse]
  · intro hdirective
    have hmem : t ∈ scan source := hscan ▸ List.mem_append_right before List.mem_cons_self
    obtain ⟨spot⟩ := nonempty_place hmem
    have hsign := (spot.isReadOff hmem).head?_of_directive hdirective
    rcases coversLine_or_sign hscan hsign with ⟨-, place, hcovers⟩ | ⟨-, hoperator, -⟩
    · refine ⟨⟨place, hcovers.hasLine⟩, fun text => ?_⟩
      rw [hscan, FunctionRecord.extract_withText hdirective]
    · cases hoperator.symm.trans hdirective

/-- A comment over two lines keeps the start of its line, and a literal over two lines does not make
one. -/
theorem scan_directives_continued :
    (scan "/*\n*/ # if \x7b\t\n\"\\\n\" /*\n*/ #" =
      [⟨.blockComment, "/*\n*/", ⟨1, 1⟩⟩] ++ ⟨.directive, "# if \x7b", ⟨2, 4⟩⟩ ::
        [⟨.newline, "\n", ⟨2, 11⟩⟩, ⟨.stringLiteral, "\"\\\n\"", ⟨3, 1⟩⟩,
          ⟨.blockComment, "/*\n*/", ⟨4, 3⟩⟩, ⟨.operator, "#", ⟨5, 4⟩⟩, ⟨.endOfFile, "", ⟨5, 5⟩⟩] ∧
      ∃ place : Place "/*\n*/ # if \x7b\t\n\"\\\n\" /*\n*/ #" ⟨.directive, "# if \x7b", ⟨2, 4⟩⟩,
        HasLine place [⟨.newline, "\n", ⟨2, 11⟩⟩, ⟨.stringLiteral, "\"\\\n\"", ⟨3, 1⟩⟩,
          ⟨.blockComment, "/*\n*/", ⟨4, 3⟩⟩, ⟨.operator, "#", ⟨5, 4⟩⟩, ⟨.endOfFile, "", ⟨5, 5⟩⟩]) ∧
    scan "\"\\\n\" /*\n*/ #" =
      [⟨.stringLiteral, "\"\\\n\"", ⟨1, 1⟩⟩, ⟨.blockComment, "/*\n*/", ⟨2, 3⟩⟩] ++
        ⟨.operator, "#", ⟨3, 4⟩⟩ :: [⟨.endOfFile, "", ⟨3, 5⟩⟩] ∧
      ¬∀ u ∈ sinceNewline [⟨.stringLiteral, "\"\\\n\"", ⟨1, 1⟩⟩, ⟨.blockComment, "/*\n*/", ⟨2, 3⟩⟩],
        u.kind.isComment = true := by
  have hdirective : scan "/*\n*/ # if \x7b\t\n\"\\\n\" /*\n*/ #" =
      [⟨.blockComment, "/*\n*/", ⟨1, 1⟩⟩] ++ ⟨.directive, "# if \x7b", ⟨2, 4⟩⟩ ::
        [⟨.newline, "\n", ⟨2, 11⟩⟩, ⟨.stringLiteral, "\"\\\n\"", ⟨3, 1⟩⟩,
          ⟨.blockComment, "/*\n*/", ⟨4, 3⟩⟩, ⟨.operator, "#", ⟨5, 4⟩⟩,
          ⟨.endOfFile, "", ⟨5, 5⟩⟩] := by decide +kernel
  have hoperator : scan "\"\\\n\" /*\n*/ #" =
      [⟨.stringLiteral, "\"\\\n\"", ⟨1, 1⟩⟩, ⟨.blockComment, "/*\n*/", ⟨2, 3⟩⟩] ++
        ⟨.operator, "#", ⟨3, 4⟩⟩ :: [⟨.endOfFile, "", ⟨3, 5⟩⟩] := by decide +kernel
  exact ⟨⟨hdirective, ((scan_directives hdirective).2 rfl).1⟩, hoperator,
    mt ((scan_directives hoperator).1 rfl).1.mpr (by decide)⟩

end Token

end HeaderLint
