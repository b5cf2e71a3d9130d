import HeaderLint.Proofs.DocFormat.Tagged
import HeaderLint.Signature.TypeText

/-!
# The words of a type

The text of a return type is made of words, stars and ampersands (`IsTypeText`).  A space stands
behind every word but the last text, so no two words run together, and the words of the text are
the words that it was made of, in order (`wordsOf_joinTexts`).
-/

namespace HeaderLint

open Text
open DocLine (IsWord)

/-! ## The words of a text -/

/-- The words of a text: its longest runs of letters, digits and underscores. -/
def wordsOf (cs : List Char) : List (List Char) :=
  (cs.splitOnP fun c => !isWordChar c).filter fun w => !w.isEmpty

theorem wordsOf_append_cons (cs ds : List Char) {c : Char} (h : isWordChar c = false) :
    wordsOf (cs ++ c :: ds) = wordsOf cs ++ wordsOf ds := by
  rw [wordsOf, List.splitOnP_append_cons _ _ (by rw [h]; rfl), List.filter_append]
  rfl

theorem wordsOf_nil : wordsOf [] = [] := by
  simp [wordsOf]

theorem wordsOf_cons (ds : List Char) {c : Char} (h : isWordChar c = false) :
    wordsOf (c :: ds) = wordsOf ds := by
  have happend := wordsOf_append_cons [] ds h
  rwa [wordsOf_nil, List.nil_append, List.nil_append] at happend

theorem wordsOf_of_isWord {cs : List Char} (h : IsWord cs) : wordsOf cs = [cs] := by
  have hsingle : cs.splitOnP (fun c => !isWordChar c) = [cs] := by
    refine List.splitOnP_eq_singleton ?_
    intro c hc
    rw [h.chars c hc]
    rfl
  rw [wordsOf, hsingle, List.filter_singleton, List.isEmpty_eq_false_iff.mpr h.ne_nil]
  rfl

/-! ## The words of a type -/

/-- The text is a word, a star or an ampersand. -/
def IsTypeText (text : String) : Prop := IsWord text.toList ∨ text = "*" ∨ text = "&"

/-- The texts that are words. -/
def wordTexts (texts : List String) : List (List Char) :=
  (texts.map String.toList).filter fun w => decide (IsWord w)

theorem wordTexts_cons (text : String) (texts : List String) :
    wordTexts (text :: texts) =
      if IsWord text.toList then text.toList :: wordTexts texts else wordTexts texts := by
  rw [wordTexts, List.map_cons, List.filter_cons]
  simp only [decide_eq_true_eq]
  rfl

/-- A word is no bracket and no mark. -/
theorem ne_of_isWord {text other : String} (h : IsWord text.toList)
    (hother : ¬IsWord other.toList) : text ≠ other := by
  rintro rfl
  exact hother h

theorem bindsRight_of_isWord {text : String} (h : IsWord text.toList) :
    bindsRight text = false := by
  have hne : ∀ other ∈ ["(", "[", "*", "&", "."], text ≠ other := by
    have hmarks : ∀ other ∈ ["(", "[", "*", "&", "."], ¬IsWord other.toList := by decide
    exact fun other hother => ne_of_isWord h (hmarks other hother)
  rw [bindsRight, ← Bool.not_eq_true, List.contains_iff_mem]
  exact fun hmem => hne text hmem rfl

theorem bindsLeft_of_isTypeText {text : String} (h : IsTypeText text) : bindsLeft text = false := by
  rcases h with h | rfl | rfl
  · have hne : ∀ other ∈ [")", "[", "]", ",", "."], text ≠ other := by
      have hmarks : ∀ other ∈ [")", "[", "]", ",", "."], ¬IsWord other.toList := by decide
      exact fun other hother => ne_of_isWord h (hmarks other hother)
    rw [bindsLeft, ← Bool.not_eq_true, List.contains_iff_mem]
    exact fun hmem => hne text hmem rfl
  · rfl
  · rfl

/-- Behind a word a space stands before whatever follows in a type. -/
theorem isSpaced_of_isWord {left right : String} (hleft : IsWord left.toList)
    (hright : IsTypeText right) : isSpaced left right = true := by
  have hne : left ≠ ")" := ne_of_isWord hleft (by decide)
  rw [isSpaced, bindsRight_of_isWord hleft, bindsLeft_of_isTypeText hright, beq_false_of_ne hne]
  rfl

/-- No space stands behind a star or an ampersand. -/
theorem joinAfter_of_bindsRight {text : String} (h : bindsRight text = true)
    (rest : List String) : joinAfter text rest = joinTexts rest := by
  cases rest with
  | nil => rfl
  | cons right rest =>
    have hspaced : isSpaced text right = false := by
      rw [isSpaced, h]
      rfl
    rw [joinAfter, hspaced]
    simp only [Bool.false_eq_true, if_false, String.empty_append]
    rfl

/-- A space stands behind a word that is not the last text. -/
theorem joinAfter_of_isWord {text right : String} (h : IsWord text.toList)
    (hright : IsTypeText right) (rest : List String) :
    joinAfter text (right :: rest) = " " ++ joinTexts (right :: rest) := by
  rw [joinAfter, isSpaced_of_isWord h hright, if_pos rfl, String.append_assoc]
  rfl

/-- The words of a type are the words that it was made of. -/
theorem wordsOf_joinTexts {texts : List String} (h : ∀ s ∈ texts, IsTypeText s) :
    wordsOf (joinTexts texts).toList = wordTexts texts := by
  induction texts with
  | nil => exact wordsOf_nil
  | cons text rest ih =>
    obtain ⟨htext, hrest⟩ := List.forall_mem_cons.mp h
    rw [joinTexts, String.toList_append]
    rcases htext with hword | rfl | rfl
    · rw [wordTexts_cons, if_pos hword]
      cases rest with
      | nil =>
        rw [joinAfter, String.toList_empty, List.append_nil, wordsOf_of_isWord hword]
        rfl
      | cons right rest =>
        have hspace : isWordChar ' ' = false := by decide
        rw [joinAfter_of_isWord hword (hrest right List.mem_cons_self), ← ih hrest,
          String.toList_append]
        show wordsOf (text.toList ++ ' ' :: _) = _
        rw [wordsOf_append_cons _ _ hspace, wordsOf_of_isWord hword]
        rfl
    · rw [wordTexts_cons, if_neg (by decide), joinAfter_of_bindsRight rfl, ← ih hrest]
      exact wordsOf_cons (c := '*') _ (by decide)
    · rw [wordTexts_cons, if_neg (by decide), joinAfter_of_bindsRight rfl, ← ih hrest]
      exact wordsOf_cons (c := '&') _ (by decide)

theorem toList_mem_wordTexts_iff {word : String} (hword : IsWord word.toList)
    {texts : List String} : word.toList ∈ wordTexts texts ↔ word ∈ texts := by
  rw [wordTexts, List.mem_filter, List.mem_map, decide_eq_true_iff, and_iff_left hword]
  constructor
  · rintro ⟨text, htext, heq⟩
    rwa [← String.toList_inj.mp heq]
  · intro hmem
    exact ⟨word, hmem, rfl⟩

end HeaderLint
