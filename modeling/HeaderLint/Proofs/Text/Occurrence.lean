import Mathlib.Data.List.Basic
import HeaderLint.Text.Search

/-!
# Where a text occurs first

`afterFirst` finds a text in another one character by character, and `replaceFirst` replaces it
there.  In a text that is put together from parts, the first occurrence can be looked for part by
part in two cases.

* A part without the first character of what is looked for does not matter
  (`afterFirst_append_of_not_mem`, `replaceFirst_append_of_not_mem`).
* A character that what is looked for does not have parts the text: no occurrence reaches over it
  (`afterFirst_append_cons`, and `not_infix_append_cons` for a text that does not occur).
-/

namespace HeaderLint.Text

variable {needle : List Char} {c : Char}

theorem afterFirst_cons (needle : List Char) (c : Char) (cs : List Char) :
    afterFirst needle (c :: cs) = (needle.isPrefixOf? (c :: cs)).or (afterFirst needle cs) := by
  rw [afterFirst]
  cases needle.isPrefixOf? (c :: cs) <;> rfl

theorem isPrefixOf?_nil (h : needle ≠ []) : needle.isPrefixOf? [] = none := by
  cases needle with
  | nil => exact absurd rfl h
  | cons d needle => rfl

theorem isPrefixOf?_cons_cons (needle : List Char) (c d : Char) (cs : List Char) :
    (c :: needle).isPrefixOf? (d :: cs) = if c == d then needle.isPrefixOf? cs else none := rfl

theorem isPrefixOf?_cons_of_ne {d : Char} (h : c ≠ d) (cs : List Char) :
    (c :: needle).isPrefixOf? (d :: cs) = none := by
  rw [isPrefixOf?_cons_cons, beq_false_of_ne h, if_neg Bool.false_ne_true]

/-- A start that lacks the character ends before it. -/
theorem isPrefixOf?_append_cons (h : c ∉ needle) (a b : List Char) :
    needle.isPrefixOf? (a ++ c :: b) = (needle.isPrefixOf? a).map (· ++ c :: b) := by
  induction needle generalizing a with
  | nil => rfl
  | cons d needle ih =>
    obtain ⟨hd, hneedle⟩ := List.ne_and_not_mem_of_not_mem_cons h
    cases a with
    | nil => rw [List.nil_append, isPrefixOf?_cons_of_ne (Ne.symm hd)]; rfl
    | cons e a =>
      rw [List.cons_append, isPrefixOf?_cons_cons, isPrefixOf?_cons_cons, ih hneedle]
      split <;> rfl

/-- A start that lacks the character ends before it, and leaves what is behind. -/
theorem append_cons_eq_append_iff (h : c ∉ needle) {a b rest : List Char} :
    a ++ c :: b = needle ++ rest ↔ ∃ front, a = needle ++ front ∧ rest = front ++ c :: b := by
  rw [eq_comm, ← List.isPrefixOf?_eq_some_iff_append_eq, isPrefixOf?_append_cons h,
    Option.map_eq_some_iff]
  refine exists_congr fun front => ?_
  rw [List.isPrefixOf?_eq_some_iff_append_eq, eq_comm, @eq_comm _ rest]

/-- A part without the first character of a text holds no start of it. -/
theorem afterFirst_append_of_not_mem {a : List Char} (h : c ∉ a) (b : List Char) :
    afterFirst (c :: needle) (a ++ b) = afterFirst (c :: needle) b := by
  induction a with
  | nil => rfl
  | cons d a ih =>
    obtain ⟨hd, ha⟩ := List.ne_and_not_mem_of_not_mem_cons h
    rw [List.cons_append, afterFirst_cons, isPrefixOf?_cons_of_ne hd, Option.none_or, ih ha]

theorem afterFirst_eq_none {a : List Char} (h : c ∉ a) : afterFirst (c :: needle) a = none := by
  have hnil : afterFirst (c :: needle) (a ++ []) = none := afterFirst_append_of_not_mem h []
  rwa [List.append_nil] at hnil

/-- The first occurrence is before the character that it lacks, or behind it. -/
theorem afterFirst_append_cons (hne : needle ≠ []) (h : c ∉ needle) (a b : List Char) :
    afterFirst needle (a ++ c :: b) =
      ((afterFirst needle a).map (· ++ c :: b)).or (afterFirst needle b) := by
  induction a with
  | nil =>
    have hstart : needle.isPrefixOf? (c :: b) = none := by
      have hparts := isPrefixOf?_append_cons h [] b
      rwa [isPrefixOf?_nil hne] at hparts
    rw [List.nil_append, afterFirst_cons, hstart, afterFirst, isPrefixOf?_nil hne]
    rfl
  | cons d a ih =>
    rw [List.cons_append, afterFirst_cons, ← List.cons_append, isPrefixOf?_append_cons h, ih,
      afterFirst_cons]
    cases needle.isPrefixOf? (d :: a) <;> rfl

theorem replaceFirst_cons (needle new : List Char) (c : Char) (cs : List Char) :
    replaceFirst needle new (c :: cs) =
      ((needle.isPrefixOf? (c :: cs)).map (new ++ ·)).or
        ((replaceFirst needle new cs).map (c :: ·)) := by
  rw [replaceFirst]
  cases needle.isPrefixOf? (c :: cs) <;> rfl

/-- A part without the first character of a text stays as it is when the text is replaced. -/
theorem replaceFirst_append_of_not_mem {a : List Char} (h : c ∉ a) (new b : List Char) :
    replaceFirst (c :: needle) new (a ++ b) =
      (replaceFirst (c :: needle) new b).map (a ++ ·) := by
  induction a with
  | nil => simp
  | cons d a ih =>
    obtain ⟨hd, ha⟩ := List.ne_and_not_mem_of_not_mem_cons h
    rw [List.cons_append, replaceFirst_cons, isPrefixOf?_cons_of_ne hd, Option.map_none,
      Option.none_or, ih ha, Option.map_map]
    rfl

theorem replaceFirst_eq_none {a : List Char} (h : c ∉ a) (new : List Char) :
    replaceFirst (c :: needle) new a = none := by
  have hnil : replaceFirst (c :: needle) new (a ++ []) = none :=
    replaceFirst_append_of_not_mem h new []
  rwa [List.append_nil] at hnil

/-- Behind a part without its first character a text is replaced where it stands. -/
theorem replaceFirst_append_append {a : List Char} (h : c ∉ a) (new b : List Char) :
    replaceFirst (c :: needle) new (a ++ (c :: needle ++ b)) = some (a ++ (new ++ b)) := by
  have hstart : (c :: needle).isPrefixOf? (c :: needle ++ b) = some b :=
    List.isPrefixOf?_eq_some_iff_append_eq.mpr rfl
  rw [replaceFirst_append_of_not_mem h, List.cons_append, replaceFirst_cons, ← List.cons_append,
    hstart]
  rfl

/-! ## No occurrence -/

section
variable {a b : List Char} (hc : c ∉ needle)
include hc

theorem eq_nil_of_prefix_cons (h : needle <+: c :: b) : needle = [] := by
  rcases List.prefix_cons_iff.mp h with rfl | ⟨rest, rfl, -⟩
  · rfl
  · exact absurd List.mem_cons_self hc

/-- No occurrence reaches over a character that what is looked for does not have. -/
theorem not_infix_append_cons (ha : ¬ needle <:+: a) (hb : ¬ needle <:+: b) :
    ¬ needle <:+: a ++ c :: b := by
  rw [List.infix_append_iff]
  rintro (h | h | ⟨front, rest, rfl, hfront, hrest⟩)
  · exact ha h
  · rcases List.infix_cons_iff.mp h with h | h
    · rw [eq_nil_of_prefix_cons hc h] at hb
      exact hb List.nil_infix
    · exact hb h
  · have hnil : rest = [] :=
      eq_nil_of_prefix_cons (fun hmem => hc (List.mem_append_right _ hmem)) hrest
    rw [hnil, List.append_nil] at ha
    exact ha hfront.isInfix

end

end HeaderLint.Text
