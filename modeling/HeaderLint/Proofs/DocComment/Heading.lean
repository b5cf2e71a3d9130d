import Mathlib.Data.List.Forall2
import HeaderLint.Proofs.DocCheck.Agreement
import HeaderLint.Proofs.DocComment.Nearest
import HeaderLint.Proofs.Signature.Moved
import HeaderLint.Proofs.Token.Tiling

/-!
# Functions below a comment

A comment on lines of its own at the start of a text (`Heading`) brings no tokens that carry
structure.  So the signatures below it are those of the text without it, further down.

If the text below has no comment, the heading is the nearest comment to every function.  It
documents the functions whose names stand in the first lines below, and their documentation is what
the lines of the heading say (`Heading.forall₂_isBelow`).  A text on one line has its names in its
first line (`Signature.line_of_isOneLine`).

What a check of the format says of a function depends on the lines of its documentation alone, and
of these on those that are not empty (`DocPiece.isIn_nil`).  So it says the same below two headings
that differ in empty lines (`Heading.forall₂_sameVerdict`).
-/

namespace HeaderLint

open Text Token DocLine

/-! ## Texts on one line -/

/-- The text is one line, with a line end behind it or without. -/
def IsOneLine (source : String) : Prop := '\n' ∉ source.toList.dropLast

instance (source : String) : Decidable (IsOneLine source) := inferInstanceAs (Decidable (¬_))

theorem Token.Tiles.ne_nil {p : Position} {cs : List Char} {ts : List Token} (h : Tiles p cs ts)
    {t : Token} (ht : t ∈ ts) (hkind : t.kind ≠ .endOfFile) : cs ≠ [] := by
  cases h with
  | last =>
    rw [List.mem_singleton.mp ht] at hkind
    exact absurd rfl hkind
  | token _ _ text => simp [text]

/-- Only line feeds before the last character put a token on a later line. -/
theorem Token.Tiles.line_le {p : Position} {cs : List Char} {ts : List Token}
    (h : Tiles p cs ts) :
    ∀ t ∈ ts, t.kind ≠ .endOfFile → t.line ≤ p.line + cs.dropLast.count '\n' := by
  induction h with
  | last =>
    intro t ht hkind
    rw [List.mem_singleton.mp ht] at hkind
    exact absurd rfl hkind
  | @token p gap rest t ts blank kind text place tiles ih =>
    have hline : t.line = p.line := by
      rw [line, place, Position.advance_gap p blank]
    refine List.forall_mem_cons.mpr ⟨fun _ => hline ▸ Nat.le_add_right _ _, ?_⟩
    intro u hu hkind
    have hle := ih u hu hkind
    rw [Position.line_advance, ← line, hline] at hle
    rw [← List.append_assoc, List.dropLast_append_of_ne_nil (tiles.ne_nil hu hkind),
      List.count_append, List.count_append]
    omega

theorem Signature.line_of_isOneLine {source : String} (h : IsOneLine source) {s : Signature}
    (hs : s ∈ Signature.extract (scan source)) : s.line = 1 := by
  obtain ⟨t, ht, hkind, -, hplace⟩ := exists_name_of_mem_extract hs
  have hline : t.line = s.line := congrArg Position.line hplace
  have hge := (scan_tiles source).le_line t ht
  have hle := (scan_tiles source).line_le t ht (by rw [hkind]; decide)
  rw [List.count_eq_zero.mpr h] at hle
  exact hline ▸ Nat.le_antisymm hle hge

/-! ## Documentation by its lines -/

namespace DocPiece

/-- The line of documentation has the piece, for a function with these parameter names. -/
def isIn (names : List String) : DocPiece → DocLine → Bool
  | .description, line => isDescription line names
  | .parameter name, line => describesParameter line name
  | .returnValue, line => describesReturn line
  | .note, line => isNote line

/-- An empty line has no piece. -/
theorem isIn_nil (names : List String) (piece : DocPiece) : piece.isIn names [] = false := by
  cases piece <;> rfl

/-- Empty lines around a documentation do not matter. -/
theorem any_isIn_framed (names : List String) (piece : DocPiece) (doc : List DocLine) :
    ([] :: doc ++ [[]]).any (piece.isIn names) = doc.any (piece.isIn names) := by
  rw [List.cons_append, List.any_cons, List.any_append, List.any_cons, List.any_nil, isIn_nil,
    Bool.false_or, Bool.false_or, Bool.or_false]

end DocPiece

namespace FunctionRecord

theorem hasPiece_eq_any (f : FunctionRecord) (piece : DocPiece) :
    f.hasPiece piece = f.docLines.any (piece.isIn f.parameterNames) := by
  cases piece <;> rfl

/-- The function is another one further down, and documented by these lines. -/
structure IsBelow (lines : Nat) (doc : List DocLine) (f g : FunctionRecord) : Prop where
  toSignature_eq : g.toSignature = f.toSignature.moved (.down lines)
  isDocumented : g.isDocumented = true
  docLines_eq : g.docLines = doc

/-- A check of the format says the same of both functions. -/
structure SameVerdict (f g : FunctionRecord) : Prop where
  isComplete_eq : g.isComplete = f.isComplete
  missingPieces_eq : g.missingPieces = f.missingPieces

/-- Where the same signature asks for the same pieces, and the same pieces are there, the same
pieces are missing. -/
theorem sameVerdict_of_hasPiece {f g : FunctionRecord}
    (hrequired : g.requiredPieces = f.requiredPieces)
    (hpieces : ∀ piece, g.hasPiece piece = f.hasPiece piece) : SameVerdict f g := by
  have hmissing : g.missingPieces = f.missingPieces := by
    rw [missingPieces_eq_filter, missingPieces_eq_filter, hrequired]
    simp only [hpieces]
  refine ⟨?_, hmissing⟩
  rw [Bool.eq_iff_iff, isComplete_iff_missingPieces_eq_nil, isComplete_iff_missingPieces_eq_nil,
    hmissing]

theorem IsBelow.sameVerdict {m n : Nat} {doc doc' : List DocLine} {f g h : FunctionRecord}
    (hg : IsBelow m doc f g) (hh : IsBelow n doc' f h)
    (hdoc : ∀ names piece, doc'.any (DocPiece.isIn names piece) =
      doc.any (DocPiece.isIn names piece)) : SameVerdict g h := by
  have hnames : h.parameterNames = g.parameterNames := by
    rw [hg.toSignature_eq, hh.toSignature_eq]
    rfl
  refine sameVerdict_of_hasPiece ?_ ?_
  · rw [requiredPieces, requiredPieces, hg.toSignature_eq, hh.toSignature_eq]
    rfl
  · intro piece
    rw [hasPiece_eq_any, hasPiece_eq_any, hg.docLines_eq, hh.docLines_eq, hnames, hdoc]

end FunctionRecord

/-! ## Headings -/

/-- A comment on lines of its own at the start of a text. -/
structure Heading (lines : Nat) (doc : List DocLine) where
  tokens : List Token
  /-- No token of the comment carries structure. -/
  significant_tokens : significant tokens = []
  /-- To a place below it the comment ends in its last line. -/
  exists_comment : ∀ place : Position, lines < place.line →
    ∃ d, DocComment.find? tokens place = some d ∧ d.endLine = lines ∧ ofComment d.text = doc

namespace Heading

variable {lines : Nat} {doc : List DocLine}

theorem extract_append (h : Heading lines doc) (below : List Token) :
    Signature.extract (h.tokens ++ below.map (moved (.down lines))) =
      (Signature.extract below).map (Signature.moved (.down lines)) := by
  rw [← Signature.extract_map_moved, Signature.extract_eq_walk, significant_append,
    h.significant_tokens, List.nil_append, ← Signature.extract_eq_walk]

/-- A function whose name stands a few lines below the heading is documented by it. -/
theorem isBelow (h : Heading lines doc) {below : List Token}
    (hplain : ∀ t ∈ below, t.kind.isComment = false) {s : Signature} (hpos : 0 < s.line)
    (hline : s.line ≤ maxDocGap) (tokens : List Token) :
    FunctionRecord.IsBelow lines doc (s.withDocumentation tokens)
      ((s.moved (.down lines)).withDocumentation
        (h.tokens ++ below.map (moved (.down lines)))) := by
  have hbelow : ∀ t ∈ below.map (moved (.down lines)),
      t.isCommentBefore (s.moved (.down lines)).position = false := by
    refine List.forall_mem_map.mpr fun t ht => ?_
    rw [isCommentBefore, kind_moved, hplain t ht, Bool.false_and]
  have hplace : (s.moved (.down lines)).position.line = s.line + lines := rfl
  obtain ⟨d, hfind, hend, hdoc⟩ := h.exists_comment (s.moved (.down lines)).position (by omega)
  have hreaches : d.reaches (s.moved (.down lines)).position.line = true := by
    rw [DocComment.reaches, decide_eq_true_eq, hplace, hend, Nat.add_sub_cancel]
    exact hline
  have hdocumenting :
      DocComment.documenting? h.tokens (s.moved (.down lines)).position = some d := by
    rw [DocComment.documenting?, hfind, Option.filter_some, hreaches, if_pos rfl]
  rw [Signature.withDocumentation_append _ hbelow]
  refine ⟨rfl, ?_, ?_⟩
  · rw [FunctionRecord.isDocumented, Signature.withDocumentation, hdocumenting]
    rfl
  · rw [FunctionRecord.docLines, Signature.withDocumentation, hdocumenting]
    exact hdoc

section
variable {source : String} (hline : IsOneLine source)
  (hplain : ∀ t ∈ scan source, t.kind.isComment = false)
include hline hplain

theorem isBelow_of_mem_extract (h : Heading lines doc) {s : Signature}
    (hs : s ∈ Signature.extract (scan source)) :
    FunctionRecord.IsBelow lines doc (s.withDocumentation (scan source))
      ((s.moved (.down lines)).withDocumentation
        (h.tokens ++ (scan source).map (moved (.down lines)))) := by
  have hone := Signature.line_of_isOneLine hline hs
  exact h.isBelow hplain (by omega) (by rw [hone]; decide) (scan source)

/-- Below a heading a text on one line without comments has the same functions further down, all
documented by the heading. -/
theorem forall₂_isBelow (h : Heading lines doc) :
    List.Forall₂ (FunctionRecord.IsBelow lines doc) (FunctionRecord.extract (scan source))
      (FunctionRecord.extract (h.tokens ++ (scan source).map (moved (.down lines)))) := by
  rw [FunctionRecord.extract, FunctionRecord.extract, h.extract_append, List.map_map,
    List.forall₂_map_left_iff, List.forall₂_map_right_iff, List.forall₂_same]
  intro s hs
  exact h.isBelow_of_mem_extract hline hplain hs

/-- Below two headings with the same pieces a check of the format says the same. -/
theorem forall₂_sameVerdict {lines' : Nat} {doc' : List DocLine} (h : Heading lines doc)
    (h' : Heading lines' doc')
    (hdoc : ∀ names piece, doc'.any (DocPiece.isIn names piece) =
      doc.any (DocPiece.isIn names piece)) :
    List.Forall₂ FunctionRecord.SameVerdict
      (FunctionRecord.extract (h.tokens ++ (scan source).map (moved (.down lines))))
      (FunctionRecord.extract (h'.tokens ++ (scan source).map (moved (.down lines')))) := by
  rw [FunctionRecord.extract, FunctionRecord.extract, h.extract_append, h'.extract_append,
    List.map_map, List.map_map, List.forall₂_map_left_iff, List.forall₂_map_right_iff,
    List.forall₂_same]
  intro s hs
  have hbelow := h.isBelow_of_mem_extract hline hplain hs
  exact hbelow.sameVerdict (h'.isBelow_of_mem_extract hline hplain hs) hdoc

end

end Heading

end HeaderLint
