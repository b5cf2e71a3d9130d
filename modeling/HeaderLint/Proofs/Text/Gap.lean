import Mathlib.Data.List.DropRight
import HeaderLint.Text.Blank

/-!
# Gaps

A gap is a run of blanks without a line feed.  It is what stands between two tokens
of a line.

Trimming the end of a text takes away blanks only (`trimEnd_append_blanks`), and it
never reaches a character that is not blank (`trimEnd_cons`).  So the end that a
directive loses is a gap.  A trimmed text stays as it is (`trim_trim`).
-/

namespace HeaderLint.Text

/-- A run of blanks that stays on its line. -/
def IsGap (cs : List Char) : Prop := ∀ c ∈ cs, isBlank c = true ∧ c ≠ '\n'

theorem isGap_nil : IsGap [] := fun _ h => absurd h List.not_mem_nil

theorem isGap_cons {c : Char} {cs : List Char} :
    IsGap (c :: cs) ↔ (isBlank c = true ∧ c ≠ '\n') ∧ IsGap cs := List.forall_mem_cons

theorem isGap_append {cs ds : List Char} : IsGap (cs ++ ds) ↔ IsGap cs ∧ IsGap ds :=
  List.forall_mem_append

theorem IsGap.newline_not_mem {cs : List Char} (h : IsGap cs) : '\n' ∉ cs :=
  fun hm => (h '\n' hm).2 rfl

theorem isGap_replicate_space (n : Nat) : IsGap (List.replicate n ' ') := by
  intro c hc
  rw [List.eq_of_mem_replicate hc]
  decide

/-- A text is its trimmed text followed by blanks. -/
theorem trimEnd_append_blanks (cs : List Char) :
    ∃ blanks, cs = trimEnd cs ++ blanks ∧ ∀ c ∈ blanks, isBlank c = true := by
  refine ⟨(cs.reverse.takeWhile isBlank).reverse, ?_, fun c hc => ?_⟩
  · rw [trimEnd, ← List.reverse_append, List.takeWhile_append_dropWhile, List.reverse_reverse]
  · exact List.all_eq_true.mp List.all_takeWhile c (List.mem_reverse.mp hc)

/-- Trimming keeps a first character that is not blank. -/
theorem trimEnd_cons {c : Char} (hb : isBlank c = false) (cs : List Char) :
    trimEnd (c :: cs) = c :: trimEnd cs := by
  rw [trimEnd, trimEnd, List.reverse_cons, List.dropWhile_append]
  split
  · next h =>
    rw [List.isEmpty_iff.mp h]
    simp [hb]
  · rw [List.reverse_append]
    rfl

/-- Trimming takes away all blanks at the end. -/
theorem trimEnd_append_of_blank {cs : List Char} (blanks : List Char)
    (hb : ∀ c ∈ blanks, isBlank c = true) : trimEnd (cs ++ blanks) = trimEnd cs := by
  rw [trimEnd, trimEnd, List.reverse_append, List.dropWhile_append_of_pos]
  intro c hc
  exact hb c (List.mem_reverse.mp hc)

theorem trim_append_of_blank {cs : List Char} (blanks : List Char)
    (hb : ∀ c ∈ blanks, isBlank c = true) : trim (cs ++ blanks) = trim cs := by
  rw [trim, trim, trimStart, trimStart, List.dropWhile_append]
  split
  · next h =>
    rw [List.isEmpty_iff.mp h, List.dropWhile_eq_nil_iff.mpr hb]
  · exact trimEnd_append_of_blank blanks hb

theorem trimEnd_trimEnd (cs : List Char) : trimEnd (trimEnd cs) = trimEnd cs := by
  obtain ⟨blanks, h, hb⟩ := trimEnd_append_blanks cs
  have ht : trimEnd cs = trimEnd (trimEnd cs ++ blanks) := congrArg trimEnd h
  rw [trimEnd_append_of_blank blanks hb] at ht
  exact ht.symm

theorem trimEnd_isPrefix (cs : List Char) : trimEnd cs <+: cs := by
  obtain ⟨blanks, h, -⟩ := trimEnd_append_blanks cs
  exact ⟨blanks, h.symm⟩

/-! ## Trimming both ends -/

theorem trim_cons_of_blank {c : Char} (hb : isBlank c = true) (cs : List Char) :
    trim (c :: cs) = trim cs := by
  rw [trim, trim, trimStart, trimStart, List.dropWhile_cons_of_pos hb]

theorem trim_cons {c : Char} (hb : isBlank c = false) (cs : List Char) :
    trim (c :: cs) = c :: trimEnd cs := by
  rw [trim, trimStart, List.dropWhile_cons_of_neg (by simp [hb]), trimEnd_cons hb]

theorem trim_trimEnd (cs : List Char) : trim (trimEnd cs) = trim cs := by
  obtain ⟨blanks, h, hb⟩ := trimEnd_append_blanks cs
  have ht : trim cs = trim (trimEnd cs ++ blanks) := congrArg trim h
  rw [trim_append_of_blank blanks hb] at ht
  exact ht.symm

theorem trim_trim (cs : List Char) : trim (trim cs) = trim cs := by
  have hstart : trimStart (trimStart cs) = trimStart cs := List.dropWhile_idempotent isBlank cs
  calc trim (trim cs)
    _ = trim (trimStart cs) := trim_trimEnd (trimStart cs)
    _ = trim cs := by rw [trim, hstart, trim]

end HeaderLint.Text
