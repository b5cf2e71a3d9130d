import HeaderLint.Proofs.Checked.Access
import HeaderLint.Proofs.DocComment.Nearest

/-!
# The comment before a place, by place

The last comment that starts before a place is found as a place among the tokens.  The walk
upwards takes the tokens before it, and the first line of a run is the line of its first comment.
No access fails, and what is found is the comment (`Checked.comment?_eq`), if the line behind the
last line of each token is a number.
-/

namespace HeaderLint

namespace Checked

variable (limit : Nat)

/-- The place of the last token with a property. -/
def lastPlace? (p : Token → Bool) : List Token → Option Nat
  | [] => none
  | t :: ts =>
    match lastPlace? p ts with
    | some i => some (i + 1)
    | none => if p t then some 0 else none

/-- The line comments that continue a run upwards from a line, nearest first. -/
def runAbove (line : Nat) : List Token → Except Fault (List Token)
  | [] => return []
  | t :: ts =>
    if t.kind == .newline then runAbove line ts
    else if t.kind == .lineComment then do
      if (← sum limit t.line 1) == line then return t :: (← runAbove t.line ts) else return []
    else return []

/-- The line of the last character of a token. -/
def endLine (t : Token) : Except Fault Nat := sum limit t.line (t.text.toList.count '\n')

/-- The last comment that starts before a place. -/
def comment? (tokens : List Token) (place : Position) : Except Fault (Option DocComment) :=
  match lastPlace? (Token.isCommentBefore place) tokens with
  | none => return none
  | some i => do
    let last ← item tokens i
    if last.kind == .blockComment then return some ⟨last.text, last.line, ← endLine limit last⟩
    else
      let above ← range tokens 0 i
      let run := (last :: (← runAbove limit last.line above.reverse)).reverse
      return some ⟨"\n".intercalate (run.map Token.text), (← item run 0).line, last.line⟩

variable {limit}

/-! ## The last comment -/

section
variable {ts : List Token} {p : Token → Bool}

theorem lastPlace?_eq_none (h : lastPlace? p ts = none) : ∀ t ∈ ts, p t = false := by
  induction ts with
  | nil => exact List.forall_mem_nil _
  | cons t ts ih =>
    rw [lastPlace?] at h
    cases hplace : lastPlace? p ts with
    | some i =>
      rw [hplace] at h
      cases h
    | none =>
      rw [hplace] at h
      refine List.forall_mem_cons.mpr ⟨?_, ih hplace⟩
      rw [← Bool.not_eq_true]
      intro ht
      rw [ht] at h
      cases h

/-- The token at the place found, with the tokens before it and behind it. -/
theorem lastPlace?_eq_some {i : Nat} (h : lastPlace? p ts = some i) :
    ∃ earlier last later, ts = earlier ++ last :: later ∧ earlier.length = i ∧ p last = true ∧
      ∀ t ∈ later, p t = false := by
  induction ts generalizing i with
  | nil => cases h
  | cons t ts ih =>
    rw [lastPlace?] at h
    cases hplace : lastPlace? p ts with
    | some j =>
      rw [hplace] at h
      cases h
      obtain ⟨earlier, last, later, rfl, rfl, hlast, hlater⟩ := ih hplace
      exact ⟨t :: earlier, last, later, rfl, rfl, hlast, hlater⟩
    | none =>
      rw [hplace] at h
      obtain ⟨ht, hzero⟩ := Option.ite_none_right_eq_some.mp h
      cases hzero
      exact ⟨[], t, ts, rfl, rfl, ht, lastPlace?_eq_none hplace⟩

end

/-! ## The run -/

section
variable {ts : List Token} (hlines : ∀ t ∈ ts, t.endLine < limit)
include hlines

theorem runAbove_eq (line : Nat) : runAbove limit line ts = .ok (DocComment.runAbove line ts) := by
  induction ts generalizing line with
  | nil => rfl
  | cons t ts ih =>
    obtain ⟨hline, hlines⟩ := List.forall_mem_cons.mp hlines
    have hsum : sum limit t.line 1 = .ok (t.line + 1) :=
      sum_eq (Nat.lt_of_le_of_lt (Nat.le_add_right _ _) hline)
    rw [runAbove, DocComment.runAbove, hsum, ih hlines, ih hlines]
    cases t.kind == .newline with
    | true => rfl
    | false =>
      cases t.kind == .lineComment with
      | false => rfl
      | true => by_cases hnext : t.line + 1 = line <;> simp [hnext]

/-- No access fails before a place, and the comment is found. -/
theorem comment?_eq (place : Position) :
    comment? limit ts place = .ok (DocComment.find? ts place) := by
  rw [comment?]
  cases hplace : lastPlace? (Token.isCommentBefore place) ts with
  | none =>
    rw [DocComment.find?_eq_none_iff.mpr (lastPlace?_eq_none hplace)]
    rfl
  | some i =>
    obtain ⟨earlier, last, later, rfl, rfl, hlast, hlater⟩ := lastPlace?_eq_some hplace
    obtain ⟨hearlier, hlines⟩ := List.forall_mem_append.mp hlines
    have hend : endLine limit last = .ok last.endLine :=
      sum_eq (Nat.le_of_lt (hlines last List.mem_cons_self))
    have habove : ∀ t ∈ earlier.reverse, t.endLine < limit := fun t ht =>
      hearlier t (List.mem_reverse.mp ht)
    rw [DocComment.find?_append_last hlater hlast]
    simp only [item_append_length, range_append, hend, runAbove_eq habove, ok_bind,
      item_zero (List.reverse_ne_nil_iff.mpr (List.cons_ne_nil _ _)) last]
    rw [DocComment.endingWith]
    split <;> rfl

end

end Checked

end HeaderLint
