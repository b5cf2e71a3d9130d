import HeaderLint.Pattern.Exclude
import HeaderLint.Proofs.Pattern.Language

/-!
# What exclude patterns accept

The language of an exclude pattern is read off its pieces from the last to the first.  Every
piece but one is a language of its own that is put in front of what follows.  Folders are
not: at the end of a pattern they stand for any rest, so what they stand for depends on
whether the pattern behind them accepts the empty text.

`ExcludePattern.matchesText_iff` says that a path matches a pattern if and only if it is in
this language.  The rows carry the proof, one step for each kind of piece
(`ExcludePiece.isRow_before`).
-/

namespace HeaderLint

open Row (IsRow singles members endings allIfEmpty)

/-- The texts of the piece in front of those of a language. -/
def ExcludePiece.ahead (L : Language Char) : ExcludePiece → Language Char
  | .char c => {[c]} * L
  | .one => singles (fun _ => true) * L
  | .set negated ranges => members negated ranges * L
  | .run => ⊤ * L
  | .folders => L + allIfEmpty L + endings (· == '/') * L

/-- The texts that a pattern accepts. -/
def ExcludePattern.language : ExcludePattern → Language Char
  | [] => 1
  | piece :: p => piece.ahead (language p)

/-- A piece puts what it stands for in front of the language of a row. -/
theorem ExcludePiece.isRow_before {row : List Char → List Bool} {L : Language Char}
    (h : IsRow row L) (piece : ExcludePiece) :
    IsRow (fun text => piece.before text (row text)) (piece.ahead L) := by
  cases piece with
  | char c =>
    rw [ahead, ← Row.singles_beq]
    exact h.one (· == c)
  | one => exact h.one fun _ => true
  | set negated ranges =>
    rw [ahead, ← Row.singles_ranges]
    exact h.one _
  | run =>
    rw [ahead, ← Row.runs_true]
    exact h.run fun _ => true
  | folders => exact h.orLast.either (h.past (· == '/'))

namespace ExcludePattern

theorem isRow_row (p : ExcludePattern) : IsRow p.row p.language := by
  induction p with
  | nil => exact Row.isRow_isEmpty
  | cons piece p ih => exact ExcludePiece.isRow_before ih piece

/-- A path matches a pattern if and only if the pattern accepts its text. -/
theorem matchesText_iff (p : ExcludePattern) (text : String) :
    p.matchesText text = true ↔ text.toList ∈ p.language :=
  p.isRow_row.whole_iff text.toList

end ExcludePattern

end HeaderLint
