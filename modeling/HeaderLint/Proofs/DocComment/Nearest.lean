import Mathlib.Data.List.TakeWhile
import HeaderLint.DocComment
import HeaderLint.Proofs.Token.Moved

/-!
# The nearest comment

Which comment documents a place depends on one token: the last comment that starts
before the place (`DocComment.nearest?`).  A function is documented if that comment ends
close enough above its name (`FunctionRecord.isDocumented_withDocumentation`).

Of two lists of tokens in a row the second is searched first (`DocComment.nearest?_append`).
Where it holds no comment before the place, it might as well not be there: not even the
text of the documentation depends on it (`DocComment.find?_append`).
-/

namespace HeaderLint

theorem TokenKind.isComment_iff {kind : TokenKind} :
    kind.isComment = true ↔ kind = .lineComment ∨ kind = .blockComment := by
  cases kind <;> simp [isComment]

namespace Token

/-- The token is a comment that starts before a place. -/
def isCommentBefore (place : Position) (t : Token) : Bool :=
  t.kind.isComment && t.position.before place

theorem isCommentBefore_of_lt_line {place : Position} {t : Token}
    (hcomment : t.kind.isComment = true) (h : t.line < place.line) :
    t.isCommentBefore place = true := by
  rw [isCommentBefore, hcomment, Position.before_iff.mpr (Or.inl h), Bool.and_true]

theorem isCommentBefore_of_line_lt {place : Position} {t : Token} (h : place.line < t.line) :
    t.isCommentBefore place = false := by
  have hbefore : t.position.before place = false := by
    rw [← Bool.not_eq_true, Position.before_iff, ← line]
    omega
  rw [isCommentBefore, hbefore, Bool.and_false]

end Token

namespace DocComment

open Token

/-- The last comment that starts before a place. -/
def nearest? (tokens : List Token) (place : Position) : Option Token :=
  tokens.reverse.find? (isCommentBefore place)

/-- The line where a comment ends.  A line comment ends on its own line. -/
def lastLine (t : Token) : Nat := if t.kind == .blockComment then t.endLine else t.line

theorem endLine_endingWith (last : Token) (above : List Token) :
    (endingWith last above).endLine = lastLine last := by
  rw [endingWith, lastLine]
  split <;> rfl

theorem map_endLine_find? (tokens : List Token) (place : Position) :
    (find? tokens place).map DocComment.endLine = (nearest? tokens place).map lastLine := by
  rw [find?, nearest?, List.find?_eq_head?_dropWhile_not]
  cases hdrop : tokens.reverse.dropWhile fun t => !isCommentBefore place t with
  | nil =>
    simp only [isCommentBefore] at hdrop
    rw [hdrop]
    rfl
  | cons last above =>
    simp only [isCommentBefore] at hdrop
    rw [hdrop]
    exact congrArg some (endLine_endingWith last above)

section
variable {ts us : List Token} {place : Position}

theorem nearest?_append :
    nearest? (ts ++ us) place = (nearest? us place).or (nearest? ts place) := by
  rw [nearest?, List.reverse_append, List.find?_append]
  rfl

theorem nearest?_map_down (lines : Nat) :
    nearest? (ts.map (moved (.down lines))) (place.down lines) =
      (nearest? ts place).map (moved (.down lines)) := by
  have hbefore : isCommentBefore (place.down lines) ∘ moved (.down lines) =
      isCommentBefore place := by
    funext t
    rw [Function.comp_apply, isCommentBefore, isCommentBefore, kind_moved, position_moved,
      Position.before_down]
  rw [nearest?, ← List.map_reverse, List.find?_map, hbefore]
  rfl

theorem lastLine_moved_down (lines : Nat) (t : Token) :
    lastLine (t.moved (.down lines)) = lastLine t + lines := by
  rw [lastLine, lastLine, kind_moved]
  split
  · exact Nat.add_right_comm _ _ _
  · rfl

/-- Tokens without a comment before the place do not matter to it. -/
theorem find?_append (h : ∀ t ∈ us, t.isCommentBefore place = false) :
    find? (ts ++ us) place = find? ts place := by
  rw [find?, find?, List.reverse_append, List.dropWhile_append_of_pos]
  intro t ht
  have hcomment := h t (List.mem_reverse.mp ht)
  rw [Token.isCommentBefore] at hcomment
  rw [hcomment]
  rfl

/-- What is found ends with the last comment before the place. -/
theorem find?_append_last {last : Token} (hus : ∀ t ∈ us, t.isCommentBefore place = false)
    (hlast : last.isCommentBefore place = true) :
    find? (ts ++ last :: us) place = some (endingWith last ts.reverse) := by
  rw [isCommentBefore] at hlast
  rw [List.append_cons, find?_append hus, find?, List.reverse_concat,
    List.dropWhile_cons_of_neg (by rw [hlast]; decide)]

theorem find?_eq_none_iff :
    find? ts place = none ↔ ∀ t ∈ ts, t.isCommentBefore place = false := by
  rw [← Option.map_eq_none_iff, map_endLine_find?, Option.map_eq_none_iff, nearest?,
    List.find?_eq_none]
  simp only [List.mem_reverse, Bool.not_eq_true]

end

end DocComment

theorem Signature.withDocumentation_append (s : Signature) {ts us : List Token}
    (h : ∀ t ∈ us, t.isCommentBefore s.position = false) :
    s.withDocumentation (ts ++ us) = s.withDocumentation ts := by
  rw [withDocumentation, withDocumentation, DocComment.documenting?, DocComment.documenting?,
    DocComment.find?_append h]

/-- A function is documented if the nearest comment before its name ends close enough
above it. -/
theorem FunctionRecord.isDocumented_withDocumentation (s : Signature) (tokens : List Token) :
    (s.withDocumentation tokens).isDocumented =
      (DocComment.nearest? tokens s.position).any fun t =>
        decide (s.line - DocComment.lastLine t ≤ maxDocGap) := by
  have hmap := DocComment.map_endLine_find? tokens s.position
  rw [isDocumented, Signature.withDocumentation, DocComment.documenting?]
  cases hfind : DocComment.find? tokens s.position with
  | none =>
    rw [hfind] at hmap
    rw [Option.map_eq_none_iff.mp hmap.symm]
    rfl
  | some d =>
    rw [hfind] at hmap
    obtain ⟨t, ht, hend⟩ := Option.map_eq_some_iff.mp hmap.symm
    rw [ht, Option.any_some, hend, Option.isSome_map, Option.filter_some, DocComment.reaches,
      Signature.line]
    cases decide (s.position.line - d.endLine ≤ maxDocGap) <;> rfl

end HeaderLint
