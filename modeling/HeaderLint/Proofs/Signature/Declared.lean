import HeaderLint.Proofs.Signature.Parts
import HeaderLint.Proofs.Signature.TypeWords
import HeaderLint.Proofs.Text.Occurrence

/-!
# Declarations of parameters

A parameter is declared by its type with its name put into it.  For the tokens of a parameter that
is no array (`ArrayFree`) the declaration of what they are read as is the text of these tokens
(`ArrayFree.render_parameter`).

* The name of a plain parameter stands behind the type.  A space stands before it unless the type
  ends with a star, and so it does in the text of the tokens.
* The name of a function pointer stands behind the first parenthesis and star.  No parenthesis
  stands before these, so the text of the type shows them at the same place.
-/

namespace HeaderLint

open Text
open DocLine (IsWord)

/-! ## The text of a type from its parts -/

theorem joinAfter_append (text : String) (texts : List String) (last : String)
    (rest : List String) :
    joinAfter text (texts ++ last :: rest) =
      joinAfter text (texts ++ [last]) ++ joinAfter last rest := by
  induction texts generalizing text with
  | nil => simp [joinAfter]
  | cons right texts ih =>
    rw [List.cons_append, List.cons_append, joinAfter, joinAfter, ih, ← String.append_assoc]

/-- What stands before a text plays no part in what is written behind it. -/
theorem joinTexts_append (texts : List String) (last : String) (rest : List String) :
    joinTexts (texts ++ last :: rest) = joinTexts (texts ++ [last]) ++ joinAfter last rest := by
  cases texts with
  | nil => simp [joinTexts, joinAfter]
  | cons text texts =>
    rw [List.cons_append, List.cons_append, joinTexts, joinTexts, joinAfter_append,
      String.append_assoc]

theorem mem_joinAfter {text : String} {texts : List String} {c : Char}
    (h : c ∈ (joinAfter text texts).toList) : c = ' ' ∨ ∃ s ∈ texts, c ∈ s.toList := by
  induction texts generalizing text with
  | nil => simp [joinAfter] at h
  | cons right texts ih =>
    rw [joinAfter, String.toList_append, String.toList_append, List.mem_append, List.mem_append]
      at h
    rcases h with (h | h) | h
    · split at h
      · exact Or.inl (List.mem_singleton.mp h)
      · cases h
    · exact Or.inr ⟨right, List.mem_cons_self, h⟩
    · rcases ih h with hspace | ⟨s, hs, hc⟩
      · exact Or.inl hspace
      · exact Or.inr ⟨s, List.mem_cons_of_mem _ hs, hc⟩

/-- The text of a type has the characters of its tokens, and spaces. -/
theorem mem_joinTexts {texts : List String} {c : Char} (h : c ∈ (joinTexts texts).toList) :
    c = ' ' ∨ ∃ s ∈ texts, c ∈ s.toList := by
  cases texts with
  | nil => cases h
  | cons text texts =>
    rw [joinTexts, String.toList_append, List.mem_append] at h
    rcases h with h | h
    · exact Or.inr ⟨text, List.mem_cons_self, h⟩
    · rcases mem_joinAfter h with hspace | ⟨s, hs, hc⟩
      · exact Or.inl hspace
      · exact Or.inr ⟨s, List.mem_cons_of_mem _ hs, hc⟩

/-- The text of a type ends with its last token. -/
theorem exists_joinTexts_concat (texts : List String) (last : String) :
    ∃ front, joinTexts (texts ++ [last]) = front ++ last ∧
      ∀ c ∈ front.toList, c = ' ' ∨ ∃ s ∈ texts, c ∈ s.toList := by
  rcases List.eq_nil_or_concat' texts with rfl | ⟨texts, text, rfl⟩
  · exact ⟨"", by simp [joinTexts, joinAfter], by simp⟩
  · refine ⟨joinTexts (texts ++ [text]) ++ if isSpaced text last then " " else "", ?_, ?_⟩
    · rw [List.append_assoc, List.singleton_append, joinTexts_append, joinAfter, joinAfter,
        String.append_empty, String.append_assoc]
    · intro c hc
      rw [String.toList_append, List.mem_append] at hc
      rcases hc with hc | hc
      · exact mem_joinTexts hc
      · split at hc
        · exact Or.inl (List.mem_singleton.mp hc)
        · cases hc

/-! ## Names behind a type -/

/-- The text is a word or a star. -/
def IsPointerText (text : String) : Prop := IsWord text.toList ∨ text = "*"

theorem not_mem_of_isPointerText {text : String} (h : IsPointerText text) : '(' ∉ text.toList := by
  rcases h with h | rfl
  · intro hmem
    exact absurd (h.chars _ hmem) (by decide)
  · decide

/-- Words and stars have no parenthesis in their text. -/
theorem not_mem_of_forall_isPointerText {cs : List Char} {texts : List String}
    (h : ∀ s ∈ texts, IsPointerText s) (hcs : ∀ c ∈ cs, c = ' ' ∨ ∃ s ∈ texts, c ∈ s.toList) :
    '(' ∉ cs := by
  intro hmem
  rcases hcs _ hmem with hspace | ⟨s, hs, hc⟩
  · cases hspace
  · exact not_mem_of_isPointerText (h s hs) hc

/-- The name of a plain parameter is declared behind its type. -/
theorem declare_joinTexts {texts : List String} (hne : texts ≠ [])
    (h : ∀ s ∈ texts, IsPointerText s) {name : String} (hname : IsWord name.toList) :
    Parameter.declare (joinTexts texts) name = joinTexts (texts ++ [name]) := by
  have hnone : replaceFirst ['(', '*'] (['(', '*'] ++ name.toList) (joinTexts texts).toList =
      none := replaceFirst_eq_none (not_mem_of_forall_isPointerText h fun _ => mem_joinTexts) _
  obtain ⟨texts, last, rfl⟩ := (List.eq_nil_or_concat' texts).resolve_left hne
  obtain ⟨front, hfront, -⟩ := exists_joinTexts_concat texts last
  have hlast : IsPointerText last := h last (by simp)
  have hends : (joinTexts (texts ++ [last])).toList.getLast? = last.toList.getLast? := by
    have hlastNe : last.toList ≠ [] := by
      rcases hlast with hword | rfl
      · exact hword.ne_nil
      · decide
    rw [hfront, String.toList_append, List.getLast?_append_of_ne_nil _ hlastNe]
  rw [Parameter.declare, hnone, List.append_assoc, List.singleton_append,
    joinTexts_append texts last [name], joinAfter, joinAfter, String.append_empty]
  dsimp only
  rw [hends]
  rcases hlast with hword | rfl
  · have hchar : ¬last.toList.getLast? = some '*' := by
      intro hstar
      exact absurd (hword.chars _ (List.mem_of_getLast? hstar)) (by decide)
    rw [if_neg hchar, isSpaced_of_isWord hword (Or.inl hname), if_pos rfl, String.append_assoc]
  · rw [if_pos (by decide)]
    rfl

/-- A text binds to a parenthesis that closes behind it. -/
theorem joinAfter_close (text : String) (rest : List String) :
    joinAfter text (")" :: rest) = ")" ++ joinAfter ")" rest := by
  have hspaced : isSpaced text ")" = false := by simp [isSpaced, bindsLeft]
  rw [joinAfter, hspaced]
  simp only [Bool.false_eq_true, if_false, String.empty_append]

/-- The name of a function pointer is declared behind its first parenthesis and star. -/
theorem declare_joinTexts_pointer {texts rest : List String} (h : ∀ s ∈ texts, IsPointerText s)
    (name : String) :
    Parameter.declare (joinTexts (texts ++ "(" :: "*" :: ")" :: rest)) name =
      joinTexts (texts ++ "(" :: "*" :: name :: ")" :: rest) := by
  obtain ⟨front, hfront, hchars⟩ := exists_joinTexts_concat texts "("
  have hstart : ∀ rest, joinTexts (texts ++ "(" :: "*" :: rest) =
      front ++ ("(*" ++ joinAfter "*" rest) := by
    intro rest
    have hspaced : isSpaced "(" "*" = false := rfl
    rw [joinTexts_append, hfront, joinAfter, hspaced, String.append_assoc, String.append_assoc]
    rfl
  have hname : joinAfter "*" (name :: ")" :: rest) = name ++ joinAfter "*" (")" :: rest) := by
    rw [joinAfter_of_bindsRight rfl, joinTexts, joinAfter_close, joinAfter_close]
  have hreplace : replaceFirst ['(', '*'] (['(', '*'] ++ name.toList)
      (joinTexts (texts ++ "(" :: "*" :: ")" :: rest)).toList =
        some (front.toList ++
          (['(', '*'] ++ name.toList ++ (joinAfter "*" (")" :: rest)).toList)) := by
    rw [hstart, String.toList_append, String.toList_append]
    exact replaceFirst_append_append (not_mem_of_forall_isPointerText h hchars) _ _
  rw [Parameter.declare, hreplace, hstart (name :: ")" :: rest), hname, ← String.toList_inj]
  simp only [String.toList_ofList, String.toList_append, List.append_assoc]
  rfl

/-! ## Parameters without arrays -/

/-- The tokens of a parameter that is no array: words and stars with or without a name among them,
a pointer to a function with a name, or three full stops. -/
inductive ArrayFree : List Token → Prop
  | plain {part : List Token} (hne : part ≠ [])
      (plain : ∀ t ∈ part, (isWord t || isStar t) = true) :
      ArrayFree part
  | pointer {left arguments : List Token} {opening star name closing opening' closing' : Token}
      (plain : ∀ t ∈ left, (isWord t || isStar t) = true) (opens : opening.isSymbol "(" = true)
      (points : isStar star = true) (isName : name.kind = .identifier)
      (closes : closing.isSymbol ")" = true) (opens' : opening'.isSymbol "(" = true)
      (arguments_plain : ∀ t ∈ arguments, isArgumentToken t = true)
      (balanced : Encloses 0 arguments) (closes' : closing'.isSymbol ")" = true) :
      ArrayFree
        (left ++ opening :: star :: name :: closing :: opening' :: (arguments ++ [closing']))
  | ellipsis {a b c : Token} (ha : a.isSymbol "." = true) (hb : b.isSymbol "." = true)
      (hc : c.isSymbol "." = true) : ArrayFree [a, b, c]

section
variable {part : List Token}

theorem isTypeToken_of_isWord_or_isStar {t : Token} (h : (isWord t || isStar t) = true) :
    isTypeToken t = true :=
  (Bool.or_eq_true_iff.mp h).elim isTypeToken_of_isWord isTypeToken_of_isStar

theorem isFlat_of_isWord_or_isStar {ts : List Token} (h : ∀ t ∈ ts, (isWord t || isStar t) = true) :
    ∀ t ∈ ts, IsFlat t :=
  fun t ht => isFlat_of_isTypeToken (isTypeToken_of_isWord_or_isStar (h t ht))

namespace ArrayFree

variable (h : ArrayFree part)
include h

theorem isPart : IsPart part := by
  cases h with
  | plain hne plain => exact isPart_flat hne (isFlat_of_isWord_or_isStar plain)
  | @pointer left arguments _ star name _ opening' _ plain opens points isName closes opens'
      arguments_plain balanced closes' =>
    have hflat := isFlat_of_isWord_or_isStar plain
    have hname : ∀ t ∈ [star, name], IsFlat t := by
      rw [List.forall_mem_cons, List.forall_mem_singleton]
      exact ⟨isFlat_of_isTypeToken (isTypeToken_of_isStar points), isFlat_of_isIdentifier isName⟩
    refine ⟨List.append_ne_nil_of_right_ne_nil _ (List.cons_ne_nil _ _), ?_, ?_⟩
    · refine (nests_flat hflat).append (nests_open opens (Or.inl rfl) ?_)
      refine (nests_flat hname).append (nests_close closes (Or.inl rfl) ?_)
      refine nests_open opens' (Or.inl rfl) ((balanced.nests arguments_plain).append ?_)
      exact nests_close closes' (Or.inl rfl) rfl
    · refine (encloses_flat hflat).append ?_
      refine @Encloses.parens _ _ [star, name] _ opens (encloses_flat hname) closes ?_
      exact balanced.parens opens' closes' (encloses_nil.mpr rfl)
  | ellipsis ha hb hc => exact (Spells.ellipsis ha hb hc).isPart

end ArrayFree

/-- The name of a plain parameter is the last token of the part. -/
theorem splitPlain?_eq_some {left right : List Token} {name : Token}
    (h : splitPlain? part = some (left, name, right)) :
    part = left ++ [name] ∧ right = [] ∧ left ≠ [] ∧ name.kind = .identifier := by
  rw [splitPlain?] at h
  split at h
  · next last previous hlast hprevious =>
    split at h
    · next hname =>
      cases h
      refine ⟨(List.dropLast_append_getLast? _ hlast).symm, rfl, ?_, ?_⟩
      · intro hnil
        rw [hnil] at hprevious
        cases hprevious
      · exact beq_iff_eq.mp (Bool.and_eq_true_iff.mp hname).1
    · cases h
  · cases h

theorem isPointerText_of_isWord_or_isStar {t : Token} (h : (isWord t || isStar t) = true)
    (hword : isWord t = true → IsWord t.text.toList) : IsPointerText t.text := by
  rcases Bool.or_eq_true_iff.mp h with h | h
  · exact Or.inl (hword h)
  · exact Or.inr (beq_iff_eq.mp (Bool.and_eq_true_iff.mp h).2)

/-- The declaration of a parameter is the text of its tokens. -/
theorem ArrayFree.render_parameter (h : ArrayFree part)
    (hwords : ∀ t ∈ part, isWord t = true → IsWord t.text.toList) :
    (parameter part).render = typeText part := by
  have htexts : ∀ {ts : List Token}, ts ⊆ part → (∀ t ∈ ts, (isWord t || isStar t) = true) →
      ∀ s ∈ ts.map Token.text, IsPointerText s := by
    intro ts hsub hplain s hs
    obtain ⟨t, ht, rfl⟩ := List.mem_map.mp hs
    exact isPointerText_of_isWord_or_isStar (hplain t ht) (hwords t (hsub ht))
  have hname : ∀ {name : Token}, name ∈ part → name.kind = .identifier →
      IsWord name.text.toList := by
    intro name hmem isName
    exact hwords name hmem (by rw [isWord, isName]; rfl)
  cases h with
  | plain hne plain =>
    rw [parameter_flat (isFlat_of_isWord_or_isStar plain)]
    split
    · next left name right hsplit =>
      obtain ⟨rfl, rfl, hleft, isName⟩ := splitPlain?_eq_some hsplit
      have hplain := (List.forall_mem_append.mp plain).1
      rw [List.append_nil, Parameter.render, typeText, typeText, List.map_append]
      exact declare_joinTexts (by simpa using hleft)
        (htexts (List.subset_append_left _ _) hplain) (hname (by simp) isName)
    · rfl
  | @pointer left arguments opening star name closing opening' closing' plain opens points isName
      closes opens' arguments_plain balanced closes' =>
    have hsplit := splitFunctionPointer?_append left
      (closing :: opening' :: (arguments ++ [closing']))
      (fun t ht => isFlat_of_isWord_or_isStar plain t ht "(" (by simp)) opens
      (isSymbol_of_isStar points) isName
    rw [parameter_of_splitFunctionPointer? hsplit, Parameter.render, typeText, typeText]
    simp only [List.map_append, List.map_cons, List.append_assoc, Token.text_of_isSymbol opens,
      Token.text_of_isSymbol (isSymbol_of_isStar points), Token.text_of_isSymbol closes,
      List.cons_append, List.map_nil, List.nil_append]
    exact declare_joinTexts_pointer (htexts (List.subset_append_left _ _) plain) name.text
  | ellipsis ha hb hc =>
    rw [(Spells.ellipsis ha hb hc).parameter_eq]
    simp only [typeText, List.map_cons, List.map_nil, Token.text_of_isSymbol ha,
      Token.text_of_isSymbol hb, Token.text_of_isSymbol hc]
    rfl

end

end HeaderLint
