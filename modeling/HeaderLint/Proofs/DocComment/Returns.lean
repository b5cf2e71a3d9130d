import Mathlib.Data.List.Forall2
import HeaderLint.DocFormat
import HeaderLint.Proofs.DocComment.Nearest
import HeaderLint.Proofs.Token.Returns

/-!
# Functions with carriage returns

With a carriage return before every line feed a source has the same functions at the same
places, and their documentation is there and complete as before, if every literal is closed
on its line (`FunctionRecord.extract_withReturns`).

The tokens that carry structure are the same, and so are the signatures.  A comment gains
carriage returns only at the ends of its lines, and no check of a line sees them there
(`DocLine.ofCommentLine_dropReturn`).

A literal that a backslash continues is cut by the carriage return.  What it holds on its
next line is read as tokens, and then no function of the rest may be found
(`FunctionRecord.extract_withReturns_continued`).
-/

namespace HeaderLint

open Text Token

/-! ## Lines of comments -/

namespace DocLine

theorem ofCommentLine_dropReturn (line : List Char) :
    ofCommentLine (dropReturn line) = ofCommentLine line := by
  rw [dropReturn]
  split
  · next h =>
    obtain ⟨text, rfl⟩ := List.getLast?_eq_some_iff.mp h
    have hblank : ∀ c ∈ ['\r'], isBlank c = true := List.forall_mem_singleton.mpr (by decide)
    rw [List.dropLast_concat, ofCommentLine, ofCommentLine, trim_append_of_blank _ hblank]
  · rfl

end DocLine

/-! ## Comments -/

namespace Token

/-- The tokens that carry structure hold no line end. -/
theorem significant_eq_of_returned {ts us : List Token} (h : List.Forall₂ Returned ts us) :
    significant us = significant ts := by
  induction h with
  | nil => rfl
  | @cons t u ts us htu _ ih =>
    have hcons : ∀ (v : Token) (vs : List Token),
        significant (v :: vs) = if v.kind.isSignificant then v :: significant vs else
          significant vs := fun v vs => List.filter_cons
    rw [hcons, hcons, ih]
    cases htu with
    | newline => rfl
    | endOfFile => rfl
    | lexeme p plain blank returned =>
      cases returned with
      | same => rfl
      | line rest => rcases rest with rfl | rfl <;> rfl
      | block => rfl

/-- The line of documentation that a line comment is. -/
def docLine (t : Token) : DocLine := DocLine.ofCommentLine t.text.toList

namespace Returned

variable {t u : Token}

theorem kind_eq (h : Returned t u) : u.kind = t.kind := by
  cases h with
  | newline => rfl
  | endOfFile => rfl
  | lexeme p plain blank returned => exact returned.kind_eq

theorem position_eq (h : Returned t u) (hk : t.kind ≠ .newline) : u.position = t.position := by
  cases h with
  | newline => exact absurd rfl hk
  | endOfFile => rfl
  | lexeme => rfl

theorem line_eq (h : Returned t u) (hk : t.kind ≠ .newline) : u.line = t.line :=
  congrArg Position.line (h.position_eq hk)

theorem isCommentBefore_eq (h : Returned t u) (place : Position) :
    u.isCommentBefore place = t.isCommentBefore place := by
  rw [isCommentBefore, isCommentBefore, h.kind_eq]
  by_cases hk : t.kind = .newline
  · rw [hk]
    rfl
  · rw [h.position_eq hk]

/-- A line comment is one line, with or without a carriage return at its end. -/
theorem lineComment (h : Returned t u) (hk : t.kind = .lineComment) :
    IsLine t.text.toList ∧ IsLine u.text.toList ∧ u.docLine = t.docLine := by
  rw [docLine, docLine]
  cases h with
  | newline => cases hk
  | endOfFile => cases hk
  | @lexeme p c l k plain blank returned =>
    cases returned with
    | same kind =>
      rw [show l.kind = .lineComment from hk] at kind
      cases kind
    | @line kind tail ret _ htail hret =>
      replace hk : kind = .lineComment := hk
      have hline : IsLine (c :: tail) := ⟨List.cons_ne_nil _ _,
        List.not_mem_cons_of_ne_of_not_mem (Ne.symm plain) htail⟩
      rw [hk, Lexeme.toList_text_of_ne_directive (by simp),
        Lexeme.toList_text_of_ne_directive (by simp)]
      rcases hret with rfl | rfl
      · rw [List.append_nil]
        exact ⟨hline, hline, rfl⟩
      · exact ⟨hline, hline.concat_return,
          apply_concat_return DocLine.ofCommentLine_dropReturn (c :: tail)⟩
    | block => cases hk

/-- A block comment has carriage returns in its line ends. -/
theorem blockComment (h : Returned t u) (hk : t.kind = .blockComment) :
    u.text.toList = withReturns t.text.toList := by
  cases h with
  | newline => cases hk
  | endOfFile => cases hk
  | @lexeme p c l k plain blank returned =>
    cases returned with
    | same kind =>
      rw [show l.kind = .blockComment from hk] at kind
      cases kind
    | line rest => rcases rest with rfl | rfl <;> cases hk
    | block tail =>
      rw [Lexeme.toList_text_of_ne_directive (by simp),
        Lexeme.toList_text_of_ne_directive (by simp), withReturns_cons plain]

theorem endLine_eq (h : Returned t u) (hk : t.kind = .blockComment) : u.endLine = t.endLine := by
  have hposition := h.position_eq (by rw [hk]; decide)
  rw [endLine, endLine, line, line, hposition, ← Position.line_advance, ← Position.line_advance,
    h.blockComment hk, Position.advance_withReturns]

end Returned

end Token

/-- Related lists are cut at related places. -/
theorem forall₂_dropWhile {α β : Type} {R : α → β → Prop} {p : α → Bool} {q : β → Bool}
    {as : List α} {bs : List β} (h : List.Forall₂ R as bs) (hpq : ∀ a b, R a b → q b = p a) :
    List.Forall₂ R (as.dropWhile p) (bs.dropWhile q) := by
  induction h with
  | nil => exact .nil
  | @cons a b as bs hab h ih =>
    rw [List.dropWhile_cons, List.dropWhile_cons, hpq a b hab]
    split
    · exact ih
    · exact .cons hab h

namespace DocComment

/-- The two comments end on the same line, and a check of lines sees no difference. -/
structure Agrees (d e : DocComment) : Prop where
  endLine_eq : e.endLine = d.endLine
  lines_eq : DocLine.ofComment e.text = DocLine.ofComment d.text

theorem kind_of_mem_runAbove {line : Nat} {ts : List Token} :
    ∀ t ∈ runAbove line ts, t.kind = .lineComment := by
  fun_induction runAbove line ts with
  | case1 => exact List.forall_mem_nil _
  | case2 line t ts _ ih => exact ih
  | case3 line t ts _ h ih =>
    rw [Bool.and_eq_true, beq_iff_eq] at h
    exact List.forall_mem_cons.mpr ⟨h.1, ih⟩
  | case4 => exact List.forall_mem_nil _

theorem forall₂_runAbove {ts us : List Token} (h : List.Forall₂ Returned ts us) (line : Nat) :
    List.Forall₂ Returned (runAbove line ts) (runAbove line us) := by
  induction h generalizing line with
  | nil => exact .nil
  | @cons t u ts us htu _ ih =>
    rw [runAbove, runAbove, htu.kind_eq]
    split
    · exact ih line
    · next hk =>
      rw [htu.line_eq (mt beq_iff_eq.mpr hk)]
      split
      · exact .cons htu (ih t.line)
      · exact .nil

/-- The lines of a run are its comments. -/
theorem ofComment_intercalate {ts : List Token} (h : ∀ t ∈ ts, IsLine t.text.toList) :
    DocLine.ofComment ("\n".intercalate (ts.map Token.text)) = ts.map docLine := by
  have hlines : ∀ text ∈ ts.map (String.toList ∘ Token.text), IsLine text :=
    List.forall_mem_map.mpr h
  have hnewline : "\n".toList = ['\n'] := rfl
  rw [DocLine.ofComment, String.toList_intercalate, hnewline, List.map_map,
    map_lines_intercalate DocLine.ofCommentLine_dropReturn hlines, List.map_map]
  simp only [Function.comp_def]
  rfl

theorem ofComment_run_eq {ts us : List Token} (h : List.Forall₂ Returned ts us)
    (hk : ∀ t ∈ ts, t.kind = .lineComment) :
    DocLine.ofComment ("\n".intercalate (us.map Token.text)) =
      DocLine.ofComment ("\n".intercalate (ts.map Token.text)) := by
  have hlines : (∀ t ∈ ts, IsLine t.text.toList) ∧ (∀ u ∈ us, IsLine u.text.toList) ∧
      us.map docLine = ts.map docLine := by
    induction h with
    | nil => exact ⟨List.forall_mem_nil _, List.forall_mem_nil _, rfl⟩
    | cons htu _ ih =>
      obtain ⟨hline, hlines⟩ := List.forall_mem_cons.mp hk
      obtain ⟨ht, hu, heq⟩ := htu.lineComment hline
      obtain ⟨hts, hus, heqs⟩ := ih hlines
      refine ⟨List.forall_mem_cons.mpr ⟨ht, hts⟩, List.forall_mem_cons.mpr ⟨hu, hus⟩, ?_⟩
      rw [List.map_cons, List.map_cons, heq, heqs]
  obtain ⟨hts, hus, heq⟩ := hlines
  rw [ofComment_intercalate hts, ofComment_intercalate hus, heq]

theorem agrees_endingWith {t u : Token} {ts us : List Token} (ht : t.kind.isComment = true)
    (htu : Returned t u) (h : List.Forall₂ Returned ts us) :
    Agrees (endingWith t ts) (endingWith u us) := by
  have hline : u.line = t.line := by
    refine htu.line_eq ?_
    intro hk
    rw [hk] at ht
    cases ht
  rw [endingWith, endingWith, htu.kind_eq]
  split
  · next hk =>
    rw [beq_iff_eq] at hk
    refine ⟨htu.endLine_eq hk, ?_⟩
    rw [DocLine.ofComment, DocLine.ofComment, htu.blockComment hk,
      map_lines_withReturns DocLine.ofCommentLine_dropReturn]
  · next hk =>
    rw [beq_iff_eq] at hk
    have hlineComment := (TokenKind.isComment_iff.mp ht).resolve_right hk
    refine ⟨hline, ofComment_run_eq ?_ ?_⟩
    · rw [hline]
      exact List.rel_reverse (.cons htu (forall₂_runAbove h t.line))
    · intro v hv
      rcases List.mem_cons.mp (List.mem_reverse.mp hv) with rfl | hv
      · exact hlineComment
      · exact kind_of_mem_runAbove v hv

/-- The comment that documents a place is found in both or in none. -/
theorem agrees_documenting? {ts us : List Token} (h : List.Forall₂ Returned ts us)
    (place : Position) :
    Option.Rel Agrees (documenting? ts place) (documenting? us place) := by
  have hdrop : List.Forall₂ Returned
      (ts.reverse.dropWhile fun t => !t.isCommentBefore place)
      (us.reverse.dropWhile fun t => !t.isCommentBefore place) := by
    refine forall₂_dropWhile (List.rel_reverse h) ?_
    intro t u htu
    rw [htu.isCommentBefore_eq]
  have hfirst : ∀ t, (ts.reverse.dropWhile fun t => !t.isCommentBefore place).head? = some t →
      t.kind.isComment = true := by
    intro t ht
    rw [← List.find?_eq_head?_dropWhile_not] at ht
    have hcomment := List.find?_some ht
    rw [isCommentBefore, Bool.and_eq_true] at hcomment
    exact hcomment.1
  rw [documenting?, documenting?, find?, find?]
  simp only [isCommentBefore] at hdrop hfirst
  generalize ts.reverse.dropWhile _ = ts' at hdrop hfirst ⊢
  generalize us.reverse.dropWhile _ = us' at hdrop ⊢
  cases hdrop with
  | nil => exact .none
  | cons htu hrest =>
    have hagrees := agrees_endingWith (hfirst _ rfl) htu hrest
    simp only [Option.filter_some, reaches, hagrees.endLine_eq]
    split
    · exact .some hagrees
    · exact .none

end DocComment

/-! ## Functions -/

namespace FunctionRecord

/-- Two functions with the same signature that are documented alike: both or none of them,
both completely or none, and with the same pieces missing. -/
structure Agrees (f g : FunctionRecord) : Prop where
  toSignature_eq : g.toSignature = f.toSignature
  isDocumented_eq : g.isDocumented = f.isDocumented
  isComplete_eq : g.isComplete = f.isComplete
  missingPieces_eq : g.missingPieces = f.missingPieces

/-- With carriage returns a source has the same functions at the same places, with the same
documentation, if each of its literals is closed on its line. -/
theorem extract_withReturns (source : String) (h : ∀ t ∈ scan source, t.isClosed = true) :
    List.Forall₂ Agrees (extract (scan source))
      (extract (scan (.ofList (withReturns source.toList)))) := by
  have hreturned : List.Forall₂ Returned (scan source)
      (scan (.ofList (withReturns source.toList))) := by
    rw [scan, scan, String.toList_ofList]
    exact scanFrom_withReturns h
  rw [extract, extract, Signature.extract, Signature.extract,
    significant_eq_of_returned hreturned, List.forall₂_map_left_iff, List.forall₂_map_right_iff,
    List.forall₂_same]
  intro s _
  have hdoc := DocComment.agrees_documenting? hreturned s.position
  rw [Signature.withDocumentation, Signature.withDocumentation]
  generalize DocComment.documenting? (scan source) s.position = d at hdoc ⊢
  generalize DocComment.documenting? _ s.position = e at hdoc ⊢
  cases hdoc with
  | none => exact ⟨rfl, rfl, rfl, rfl⟩
  | some hagrees =>
    refine ⟨rfl, rfl, ?_, ?_⟩
    · simp only [isComplete, Option.map_some, hagrees.lines_eq]
    · simp only [missingPieces, Option.map_some, Option.getD_some, hagrees.lines_eq]

/-- A block comment of two lines, a line comment, and a function with a string. -/
theorem extract_withReturns_commented :
    (∀ t ∈ scan "/* A\n */\n// B\nchar *f(void) \x7b return \"a\"; \x7d\n",
        t.isClosed = true) ∧
      List.Forall₂ Agrees
        (extract (scan "/* A\n */\n// B\nchar *f(void) \x7b return \"a\"; \x7d\n"))
        (extract (scan (.ofList (withReturns
          "/* A\n */\n// B\nchar *f(void) \x7b return \"a\"; \x7d\n".toList)))) := by
  have h : ∀ t ∈ scan "/* A\n */\n// B\nchar *f(void) \x7b return \"a\"; \x7d\n",
      t.isClosed = true := by decide +kernel
  exact ⟨h, extract_withReturns _ h⟩

/-- A string that a backslash continues on the next line hides the function behind it. -/
theorem extract_withReturns_continued :
    ¬ List.Forall₂ Agrees (extract (scan "char *s = \"a\\\nb\";\nint f(void);\n"))
      (extract (scan (.ofList (withReturns "char *s = \"a\\\nb\";\nint f(void);\n".toList)))) := by
  intro h
  have hlength := h.length_eq
  have hone : (extract (scan "char *s = \"a\\\nb\";\nint f(void);\n")).length = 1 := by
    decide +kernel
  have hnone : (extract (scan (.ofList (withReturns
      "char *s = \"a\\\nb\";\nint f(void);\n".toList)))).length = 0 := by
    decide +kernel
  omega

end FunctionRecord

end HeaderLint
