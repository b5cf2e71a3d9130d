import Mathlib.Data.List.Basic

/-!
# The longest start of a text in a class

`IsLongest P cs text` says that `text` is the longest of the texts in the class `P` that `cs` starts
with.  The longest run of a class of characters is one (`isLongest_takeWhile`).

A longest start and a longest start of what follows make up a longest start of both classes in a row
(`Then`), if a shorter choice in the first class leaves nothing for the second
(`IsLongest.append`).  It always comes to that when the second class is a run of characters, since a
shorter choice is made up for by a shorter run (`IsLongest.append_run`).
-/

namespace HeaderLint

/-- The text is the longest start of `cs` in the class. -/
structure IsLongest (P : List Char → Prop) (cs text : List Char) : Prop where
  mem : P text
  isPrefix : text <+: cs
  length_le : ∀ other, P other → other <+: cs → other.length ≤ text.length

/-- Every character is in the class. -/
def AllOf (p : Char → Bool) (cs : List Char) : Prop := ∀ c ∈ cs, p c = true

/-- A text of the first class and one of the second behind it. -/
def Then (P Q : List Char → Prop) (cs : List Char) : Prop := ∃ us vs, cs = us ++ vs ∧ P us ∧ Q vs

section
variable {P Q : List Char → Prop} {p : Char → Bool} {cs as bs : List Char}

theorem AllOf.of_append_right (h : AllOf p (as ++ bs)) : AllOf p bs := fun c hc =>
  h c (List.mem_append_right as hc)

theorem AllOf.isPrefix_takeWhile (h : AllOf p as) (hfront : as <+: cs) :
    as <+: cs.takeWhile p := by
  obtain ⟨rest, rfl⟩ := hfront
  rw [List.takeWhile_append_of_pos h]
  exact List.prefix_append _ _

theorem allOf_takeWhile (p : Char → Bool) (cs : List Char) : AllOf p (cs.takeWhile p) :=
  List.all_eq_true.mp List.all_takeWhile

namespace IsLongest

theorem congr (h : IsLongest P cs as) (hiff : ∀ us, us <+: cs → (P us ↔ Q us)) :
    IsLongest Q cs as where
  mem := (hiff as h.isPrefix).mp h.mem
  isPrefix := h.isPrefix
  length_le us hus hfront := h.length_le us ((hiff us hfront).mpr hus) hfront

/-- A class whose texts are no longer may be added. -/
theorem or (h : IsLongest P cs as) (hle : ∀ us, Q us → us <+: cs → us.length ≤ as.length) :
    IsLongest (fun us => P us ∨ Q us) cs as where
  mem := .inl h.mem
  isPrefix := h.isPrefix
  length_le us hus hfront := hus.elim (h.length_le us · hfront) (hle us · hfront)

theorem cons (c : Char) (h : IsLongest P cs as) :
    IsLongest (fun us => ∃ vs, us = c :: vs ∧ P vs) (c :: cs) (c :: as) where
  mem := ⟨as, rfl, h.mem⟩
  isPrefix := (List.prefix_cons_inj c).mpr h.isPrefix
  length_le := by
    rintro us ⟨vs, rfl, hvs⟩ hfront
    exact Nat.succ_le_succ (h.length_le vs hvs ((List.prefix_cons_inj c).mp hfront))

theorem append_isPrefix (h : as <+: cs) (h' : bs <+: cs.drop as.length) : as ++ bs <+: cs := by
  obtain ⟨rest, rfl⟩ := h
  rw [List.drop_left] at h'
  exact (List.prefix_append_right_inj as).mpr h'

/-- Two longest starts in a row, when what continues a text of the first class starts no text of the
second. -/
theorem append (h : IsLongest P cs as) (h' : IsLongest Q (cs.drop as.length) bs)
    (hclash : ∀ us d vs ws, P us → P (us ++ d :: vs) → ¬Q (d :: ws)) :
    IsLongest (Then P Q) cs (as ++ bs) where
  mem := ⟨as, bs, rfl, h.mem, h'.mem⟩
  isPrefix := append_isPrefix h.isPrefix h'.isPrefix
  length_le := by
    rintro other ⟨us, vs, rfl, hus, hvs⟩ hother
    have husPrefix := (List.prefix_append us vs).trans hother
    have hle := h.length_le us hus husPrefix
    obtain ⟨more, rfl⟩ := List.prefix_of_prefix_length_le husPrefix h.isPrefix hle
    obtain ⟨rest, rfl⟩ := h.isPrefix
    rw [List.append_assoc, List.prefix_append_right_inj] at hother
    cases more with
    | nil =>
      rw [List.append_nil, List.drop_left] at h'
      have hvsLe := h'.length_le vs hvs hother
      simp only [List.length_append, List.length_nil]
      omega
    | cons d more =>
      -- The other choice stops early, so nothing of the second class follows it.
      cases vs with
      | nil =>
        simp only [List.length_append, List.length_nil]
        omega
      | cons e vs =>
        obtain ⟨rfl, -⟩ := List.cons_prefix_cons.mp hother
        exact absurd hvs (hclash us e more vs hus h.mem)

/-- A longest start and the longest run behind it. -/
theorem append_run (h : IsLongest P cs as) :
    IsLongest (Then P (AllOf p)) cs (as ++ (cs.drop as.length).takeWhile p) where
  mem := ⟨as, _, rfl, h.mem, allOf_takeWhile p _⟩
  isPrefix := append_isPrefix h.isPrefix (List.takeWhile_prefix p)
  length_le := by
    rintro other ⟨us, vs, rfl, hus, hvs⟩ hother
    have hle := h.length_le us hus ((List.prefix_append us vs).trans hother)
    rcases Nat.le_total (us ++ vs).length as.length with hshort | hlong
    · refine Nat.le_trans hshort ?_
      rw [List.length_append]
      exact Nat.le_add_right _ _
    -- The other choice covers the first start, and what it has behind that is a run.
    obtain ⟨more, hmore⟩ := List.prefix_of_prefix_length_le h.isPrefix hother hlong
    obtain ⟨run, hrun⟩ : ∃ run, vs = run ++ more := by
      obtain ⟨run, rfl⟩ := List.prefix_of_prefix_length_le (List.prefix_append us vs)
        (hmore ▸ List.prefix_append as more) hle
      rw [List.append_assoc, List.append_cancel_left_eq] at hmore
      exact ⟨run, hmore.symm⟩
    obtain ⟨rest, rfl⟩ := h.isPrefix
    rw [← hmore, List.prefix_append_right_inj] at hother
    rw [hrun] at hvs
    have hmoreLe := (hvs.of_append_right.isPrefix_takeWhile hother).length_le
    rw [← hmore, List.drop_left, List.length_append, List.length_append]
    omega

end IsLongest

/-- The run of a class of characters at the front is the longest. -/
theorem isLongest_takeWhile (p : Char → Bool) (cs : List Char) :
    IsLongest (AllOf p) cs (cs.takeWhile p) where
  mem := allOf_takeWhile p cs
  isPrefix := List.takeWhile_prefix p
  length_le _ h hfront := (h.isPrefix_takeWhile hfront).length_le

/-- A run that is not empty is the longest that is not. -/
theorem isLongest_takeWhile_of_ne_nil {p : Char → Bool} (h : cs.takeWhile p ≠ []) :
    IsLongest (fun us => us ≠ [] ∧ AllOf p us) cs (cs.takeWhile p) where
  mem := ⟨h, allOf_takeWhile p cs⟩
  isPrefix := List.takeWhile_prefix p
  length_le us hus := (isLongest_takeWhile p cs).length_le us hus.2

end

end HeaderLint
