import Mathlib.Data.List.Chain
import HeaderLint.Proofs.DocComment.Nearest
import HeaderLint.Proofs.Signature.Walk
import HeaderLint.Proofs.Token.Place

/-!
# Comments in reach

Whether a function is documented is asked of one comment, the nearest one before its name.  For
the tokens of a scan this comes to the same as asking whether some comment before the name ends
close enough above it (`FunctionRecord.isDocumented_iff_exists_comment`).

The reason is that tokens of a scan do not overlap.  Of two of them the one that starts first
also ends first, on the line where the other starts or above (`Token.pairwise_precedes_scan`).  So
the nearest comment ends no higher than any comment before it
(`DocComment.endLine_le_of_nearest?`), and no comment before a name ends below it.
-/

namespace HeaderLint

open Text

namespace Token

/-! ## Tokens in a row -/

/-- The first token starts before the second, and ends on its line or above. -/
structure Precedes (t u : Token) : Prop where
  endLine_le : t.endLine ≤ u.line
  before : t.position.before u.position = true

theorem line_le_endLine (t : Token) : t.line ≤ t.endLine := Nat.le_add_right _ _

theorem Precedes.trans {t u v : Token} (htu : Precedes t u) (huv : Precedes u v) :
    Precedes t v where
  endLine_le := Nat.le_trans htu.endLine_le (Nat.le_trans u.line_le_endLine huv.endLine_le)
  before := Position.before_trans htu.before huv.before

instance : Trans Precedes Precedes Precedes := ⟨Precedes.trans⟩

theorem pairwise_precedes_scan (source : String) : (scan source).Pairwise Precedes :=
  List.isChain_iff_pairwise.mp
    ((scan_tiles source).isChain.imp fun _ _ h => ⟨Nat.le_of_eq h.1.symm, h.2⟩)

/-- Of two tokens in a row, one that starts before the other precedes it. -/
theorem precedes_of_before {ts : List Token} (h : ts.Pairwise Precedes) {t u : Token}
    (ht : t ∈ ts) (hu : u ∈ ts) (hbefore : t.position.before u.position = true) :
    Precedes t u := by
  have hself : ∀ t : Token, t.position.before t.position = true → Precedes t t := by
    intro t hbefore
    rw [t.position.not_before_self] at hbefore
    cases hbefore
  have hforward : ts.Pairwise fun t u => t.position.before u.position = true → Precedes t u := by
    refine h.imp ?_
    intro t u hpre _
    exact hpre
  have hbackward : ts.Pairwise
      (flip fun t u => t.position.before u.position = true → Precedes t u) := by
    refine h.imp fun {t u} hpre hback => ?_
    have hcycle := Position.before_trans hpre.before hback
    rw [t.position.not_before_self] at hcycle
    cases hcycle
  exact List.Pairwise.forall_of_forall_of_flip (fun t _ => hself t) hforward hbackward ht hu hbefore

/-- A line comment holds no line feed. -/
theorem newline_not_mem_of_lineComment {source : String} {t : Token} (ht : t ∈ scan source)
    (hkind : t.kind = .lineComment) : '\n' ∉ t.text.toList := by
  obtain ⟨place⟩ := nonempty_place ht
  obtain ⟨lineStart, c, cs, -, hrule, -, htext⟩ :=
    (place.isReadOff ht).exists_rule (by rw [hkind]; decide)
  rw [hkind] at hrule
  obtain ⟨rfl, -, hread⟩ := hrule
  rw [htext, hread, List.mem_cons, not_or]
  exact ⟨by decide, newline_not_mem_restOfLine cs⟩

end Token

namespace DocComment

open Token

/-! ## The nearest comment -/

/-- The nearest comment is the last of those before the place. -/
theorem eq_or_precedes_nearest? {ts : List Token} {place : Position} {last t : Token}
    (h : ts.Pairwise Precedes) (hlast : nearest? ts place = some last) (ht : t ∈ ts)
    (hbefore : t.isCommentBefore place = true) : t = last ∨ Precedes t last := by
  obtain ⟨-, below, above, hcut, hbelow⟩ := List.find?_eq_some_iff_append.mp hlast
  rw [← List.mem_reverse, hcut, List.mem_append, List.mem_cons] at ht
  rw [← List.pairwise_reverse, hcut, List.pairwise_append, List.pairwise_cons] at h
  rcases ht with ht | rfl | ht
  · have hnot := hbelow t ht
    rw [hbefore] at hnot
    cases hnot
  · exact .inl rfl
  · exact .inr (h.2.1.1 t ht)

/-- In a scan a comment ends where it is said to end. -/
theorem lastLine_eq_endLine {source : String} {t : Token} (ht : t ∈ scan source)
    (hcomment : t.kind.isComment = true) : lastLine t = t.endLine := by
  rcases TokenKind.isComment_iff.mp hcomment with hkind | hkind
  · rw [lastLine, hkind, Token.endLine,
      List.count_eq_zero.mpr (newline_not_mem_of_lineComment ht hkind)]
    rfl
  · rw [lastLine, hkind]
    rfl

/-- No comment before a place ends below the nearest one. -/
theorem endLine_le_of_nearest? {source : String} {place : Position} {last t : Token}
    (hlast : nearest? (scan source) place = some last) (ht : t ∈ scan source)
    (hbefore : t.isCommentBefore place = true) : t.endLine ≤ lastLine last := by
  have hcomment := List.find?_some hlast
  rw [isCommentBefore, Bool.and_eq_true] at hcomment
  rw [lastLine_eq_endLine (List.mem_reverse.mp (List.mem_of_find?_eq_some hlast)) hcomment.1]
  rcases eq_or_precedes_nearest? (pairwise_precedes_scan source) hlast ht hbefore with rfl | hpre
  · exact Nat.le_refl _
  · exact Nat.le_trans hpre.endLine_le last.line_le_endLine

end DocComment

/-! ## Functions -/

namespace FunctionRecord

open Token

/-- A token that starts before the name of a function ends on the line of the name or above. -/
theorem endLine_le_line {source : String} {f : FunctionRecord} (h : f ∈ extract (scan source))
    {t : Token} (ht : t ∈ scan source) (hbefore : t.position.before f.position = true) :
    t.endLine ≤ f.line := by
  obtain ⟨s, hs, rfl⟩ := List.mem_map.mp h
  obtain ⟨name, hname, -, -, hplace⟩ := Signature.exists_name_of_mem_extract hs
  have hle : t.endLine ≤ name.line := by
    refine (precedes_of_before (pairwise_precedes_scan source) ht hname ?_).endLine_le
    rw [hplace]
    exact hbefore
  rw [line, hplace] at hle
  exact hle

/-- A function is documented if, and only if, it has a text of documentation, and if, and only
if, some comment that starts before its name ends at most three lines above it.  No comment that
starts before the name ends below its line. -/
theorem isDocumented_iff_exists_comment (source : String) {f : FunctionRecord}
    (h : f ∈ extract (scan source)) :
    (f.isDocumented = true ↔ ∃ text, f.documentation = some text) ∧
    (f.isDocumented = true ↔
      ∃ t ∈ scan source, t.kind.isComment = true ∧ t.position.before f.position = true ∧
        f.line ≤ t.endLine + 3) ∧
    ∀ t ∈ scan source, t.kind.isComment = true → t.position.before f.position = true →
      t.endLine ≤ f.line := by
  refine ⟨Option.isSome_iff_exists, ?_, fun t ht _ => endLine_le_line h ht⟩
  obtain ⟨s, -, rfl⟩ := List.mem_map.mp h
  rw [isDocumented_withDocumentation]
  constructor
  · intro hreach
    obtain ⟨t, hlast, hline⟩ := (Option.any_eq_true _ _).mp hreach
    have ht : t ∈ scan source := List.mem_reverse.mp (List.mem_of_find?_eq_some hlast)
    have hcomment := List.find?_some hlast
    rw [isCommentBefore, Bool.and_eq_true] at hcomment
    rw [decide_eq_true_eq, DocComment.lastLine_eq_endLine ht hcomment.1] at hline
    exact ⟨t, ht, hcomment.1, hcomment.2, Nat.sub_le_iff_le_add'.mp hline⟩
  · rintro ⟨t, ht, hkind, hbefore, hline⟩
    have hcomment : t.isCommentBefore s.position = true := by
      rw [isCommentBefore, hkind]
      exact hbefore
    obtain ⟨last, hlast⟩ : ∃ last, DocComment.nearest? (scan source) s.position = some last :=
      Option.isSome_iff_exists.mp
        (List.find?_isSome.mpr ⟨t, List.mem_reverse.mpr ht, hcomment⟩)
    have hend := DocComment.endLine_le_of_nearest? hlast ht hcomment
    have hle : s.line ≤ t.endLine + 3 := hline
    rw [hlast, Option.any_some, decide_eq_true_eq, maxDocGap]
    omega

/-- Behind a block comment there is another comment on its last line, three lines above the
name. -/
theorem isDocumented_iff_exists_comment_nearest :
    (⟨⟨"f", "int", [], ⟨5, 5⟩, false, false⟩, some "// B"⟩ ∈
      extract (scan "/* A.\n*/ // B\n\n\nint f(void);")) ∧
    ((⟨⟨"f", "int", [], ⟨5, 5⟩, false, false⟩, some "// B"⟩ : FunctionRecord).isDocumented = true ↔
      ∃ text, some "// B" = some text) ∧
    ((⟨⟨"f", "int", [], ⟨5, 5⟩, false, false⟩, some "// B"⟩ : FunctionRecord).isDocumented = true ↔
      ∃ t ∈ scan "/* A.\n*/ // B\n\n\nint f(void);", t.kind.isComment = true ∧
        t.position.before ⟨5, 5⟩ = true ∧ 5 ≤ t.endLine + 3) ∧
    ∀ t ∈ scan "/* A.\n*/ // B\n\n\nint f(void);", t.kind.isComment = true →
      t.position.before ⟨5, 5⟩ = true → t.endLine ≤ 5 := by
  have h : ⟨⟨"f", "int", [], ⟨5, 5⟩, false, false⟩, some "// B"⟩ ∈
      extract (scan "/* A.\n*/ // B\n\n\nint f(void);") := by decide +kernel
  exact ⟨h, isDocumented_iff_exists_comment _ h⟩

end FunctionRecord

end HeaderLint
