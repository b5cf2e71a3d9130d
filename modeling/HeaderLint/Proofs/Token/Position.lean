import HeaderLint.Proofs.Text.Gap
import HeaderLint.Token

/-!
# Positions and texts

`Position.advance` moves a position over a text one character at a time.
`Position.advance_start` says where that leads from the start: the line counts the
line feeds, and the column counts the characters after the last of them.  A text
that is not empty moves a position forward in reading order (`Position.before_advance`).
-/

namespace HeaderLint

open Text

namespace Position

/-- The place after a text that starts a file: one line more than it has line feeds,
and one column more than it has characters after the last line feed. -/
def after (cs : List Char) : Position :=
  ⟨1 + cs.count '\n', 1 + (cs.reverse.takeWhile (· ≠ '\n')).length⟩

theorem after_concat (cs : List Char) (c : Char) : after (cs ++ [c]) = (after cs).step c := by
  by_cases h : c = '\n'
  · simp [after, step, h]
    omega
  · simp [after, step, h]
    omega

theorem advance_after (cs ds : List Char) : (after cs).advance ds = after (cs ++ ds) := by
  induction ds generalizing cs with
  | nil => rw [advance_nil, List.append_nil]
  | cons d ds ih => rw [advance_cons, ← after_concat, ih, List.append_assoc, List.singleton_append]

theorem advance_start (cs : List Char) : start.advance cs = after cs := advance_after [] cs

/-- On one line a text moves the column by its length. -/
theorem advance_of_newline_not_mem (p : Position) {cs : List Char} (h : '\n' ∉ cs) :
    p.advance cs = ⟨p.line, p.column + cs.length⟩ := by
  induction cs generalizing p with
  | nil => rfl
  | cons c cs ih =>
    obtain ⟨hc, hcs⟩ := List.ne_and_not_mem_of_not_mem_cons h
    rw [advance_cons, ih _ hcs, step, if_neg (Ne.symm hc), List.length_cons,
      Nat.add_comm cs.length 1, ← Nat.add_assoc]

theorem advance_gap (p : Position) {gap : List Char} (h : IsGap gap) :
    p.advance gap = ⟨p.line, p.column + gap.length⟩ :=
  p.advance_of_newline_not_mem h.newline_not_mem

/-- A text that is not empty moves a position forward. -/
theorem before_advance (p : Position) {cs : List Char} (h : cs ≠ []) :
    p.before (p.advance cs) = true := by
  rw [before_iff, line_advance]
  by_cases hn : '\n' ∈ cs
  · have := List.count_pos_iff.mpr hn
    omega
  · have := List.length_pos_iff.mpr h
    rw [advance_of_newline_not_mem p hn, List.count_eq_zero.mpr hn]
    exact Or.inr ⟨rfl, by simp; omega⟩

/-! ## Reading order -/

theorem before_trans {p q r : Position} (hpq : p.before q = true) (hqr : q.before r = true) :
    p.before r = true := by
  rw [before_iff] at hpq hqr ⊢
  omega

theorem not_before_self (p : Position) : p.before p = false := by
  rw [← Bool.not_eq_true, before_iff]
  omega

/-- A text never leads back. -/
theorem not_before_of_advance (p : Position) (cs : List Char) :
    (p.advance cs).before p = false := by
  rw [← Bool.not_eq_true]
  intro hback
  cases cs with
  | nil =>
    rw [advance_nil, not_before_self] at hback
    cases hback
  | cons c cs =>
    have hcycle := before_trans (p.before_advance (List.cons_ne_nil c cs)) hback
    rw [not_before_self] at hcycle
    cases hcycle

end Position

end HeaderLint
