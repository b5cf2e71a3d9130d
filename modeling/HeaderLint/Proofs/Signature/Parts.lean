import Mathlib.Data.List.TakeWhile
import HeaderLint.Proofs.Signature.Brackets

/-!
# Reading parameters

What `parameters` makes of tokens that stand for parameters (`SpellsList.parameters_eq`).

The list is cut at the commas between the parts.  A part stays whole, since it ends at
the depth of brackets where it starts, and its commas stand inside brackets
(`Spells.isPart`).  This does not depend on the name: a parameter with a name is a
declarator, and with any tokens without brackets in the place of the name it is a part
(`Declarator.isPart`).

A part is read by the rule for its form, and the rules before that one do not fit: no
window of a parenthesis and a star without a parenthesis, and no array without a square
bracket (`Spells.parameter_eq`).
-/

namespace HeaderLint

/-! ## Parts -/

/-- A part of a list of parameters.  It has a token, it is not cut, and its parentheses
are balanced. -/
structure IsPart (part : List Token) : Prop where
  ne_nil : part ≠ []
  nests : Nests 0 0 part
  encloses : Encloses 0 part

theorem isPart_flat {part : List Token} (hne : part ≠ []) (h : ∀ t ∈ part, IsFlat t) :
    IsPart part :=
  ⟨hne, nests_flat h, encloses_flat h⟩

theorem IsType.isTypeToken_of_mem {isMark : Token → Bool} {type : List Token}
    (h : IsType isMark type) (hmark : ∀ t, isMark t = true → isTypeToken t = true) :
    ∀ t ∈ type, isTypeToken t = true := by
  refine h.forall_mem ?_ hmark
  intro t ht
  rw [isTypeWord, Bool.and_eq_true, Bool.and_eq_true] at ht
  exact isTypeToken_of_isWord ht.1.1

theorem isTypeToken_of_isParameterMark {t : Token} (h : (isStar t || isQualifier t) = true) :
    isTypeToken t = true := by
  rcases Bool.or_eq_true_iff.mp h with h | h
  · exact isTypeToken_of_isStar h
  · exact isTypeToken_of_isWord (Bool.and_eq_true_iff.mp h).1

theorem announcesTag_of_isParameterMark {t : Token} (h : (isStar t || isQualifier t) = true) :
    announcesTag t = false := by
  rcases Bool.or_eq_true_iff.mp h with h | h
  · refine announcesTag_of_kind_ne ?_
    rw [beq_iff_eq.mp (Bool.and_eq_true_iff.mp h).1]
    decide
  · rw [isQualifier, Bool.and_eq_true, Bool.not_eq_true'] at h
    exact h.2

theorem IsParameterType.isFlat_of_mem {type : List Token} (h : IsParameterType type) :
    ∀ t ∈ type, IsFlat t := fun t ht =>
  isFlat_of_isTypeToken (h.isTypeToken_of_mem (fun _ => isTypeToken_of_isParameterMark) t ht)

theorem isFlat_of_bound {t : Token} (h : t.kind = .identifier ∨ t.kind = .number) : IsFlat t := by
  rcases h with h | h
  · exact isFlat_of_isIdentifier h
  · exact isFlat_of_kind h (by decide)

theorem Bounds.arrayBounds {bounds : List Token} (h : Bounds bounds) : ArrayBounds bounds := by
  induction h with
  | nil => exact .nil
  | cons opens plain closes _ ih =>
    have hflat := fun t ht => isFlat_of_bound (plain t ht)
    exact .cons opens (nests_flat hflat) (encloses_flat hflat) closes ih

theorem Bounds.isPlain_of_mem {bounds : List Token} (h : Bounds bounds) :
    ∀ t ∈ bounds, IsPlain t := by
  induction h with
  | nil => simp
  | cons opens plain closes _ ih =>
    refine List.forall_mem_cons.mpr ⟨isPlain_of_isSymbol opens (by simp), ?_⟩
    refine List.forall_mem_append.mpr ⟨fun t ht => (isFlat_of_bound (plain t ht)).isPlain, ?_⟩
    exact List.forall_mem_cons.mpr ⟨isPlain_of_isSymbol closes (by simp), ih⟩

/-! ## Declarators -/

/-- What stands before the name of a parameter and what stands behind it. -/
inductive Declarator : List Token → List Token → Prop
  /-- A type before the name. -/
  | plain {type : List Token} (isType : IsParameterType type) : Declarator type []
  /-- A type before the name, and bounds behind it. -/
  | array {type bounds : List Token} (isType : IsParameterType type)
      (isBounds : ArrayBounds bounds) (bounded : bounds ≠ []) : Declarator type bounds
  /-- A type, a parenthesis and a star before the name, and behind it a parenthesis and
  arguments between parentheses. -/
  | pointer {type arguments : List Token} {opening star closing opening' closing' : Token}
      (isType : IsParameterType type) (opens : opening.isSymbol "(" = true)
      (points : isStar star = true) (closes : closing.isSymbol ")" = true)
      (opens' : opening'.isSymbol "(" = true) (nests : Nests 1 1 arguments)
      (encloses : Encloses 0 arguments) (closes' : closing'.isSymbol ")" = true) :
      Declarator (type ++ [opening, star]) (closing :: opening' :: (arguments ++ [closing']))

namespace Declarator

variable {left right : List Token} (h : Declarator left right)
include h

theorem left_ne_nil : left ≠ [] := by
  cases h with
  | plain isType => exact isType.ne_nil
  | array isType _ _ => exact isType.ne_nil
  | pointer => exact List.append_ne_nil_of_right_ne_nil _ (List.cons_ne_nil _ _)

/-- With flat tokens in the place of the name a declarator is a part. -/
theorem isPart (middle : List Token) (hmiddle : ∀ t ∈ middle, IsFlat t) :
    IsPart (left ++ (middle ++ right)) := by
  refine ⟨List.append_ne_nil_of_left_ne_nil h.left_ne_nil _, ?_, ?_⟩
  · cases h with
    | plain isType =>
      rw [List.append_nil]
      exact (nests_flat isType.isFlat_of_mem).append (nests_flat hmiddle)
    | array isType isBounds _ =>
      exact (nests_flat isType.isFlat_of_mem).append ((nests_flat hmiddle).append isBounds.nests)
    | @pointer _ arguments _ star _ opening' _ isType opens points closes opens' nests _ closes' =>
      have hstar : IsFlat star := isFlat_of_isTypeToken (isTypeToken_of_isStar points)
      rw [List.append_assoc]
      refine (nests_flat isType.isFlat_of_mem).append (nests_open opens (Or.inl rfl) ?_)
      refine (nests_flat (List.forall_mem_cons.mpr ⟨hstar, hmiddle⟩)).append ?_
      refine nests_close closes (Or.inl rfl) (nests_open opens' (Or.inl rfl) ?_)
      exact nests.append (nests_close closes' (Or.inl rfl) rfl)
  · cases h with
    | plain isType =>
      rw [List.append_nil]
      exact (encloses_flat isType.isFlat_of_mem).append (encloses_flat hmiddle)
    | array isType isBounds _ =>
      exact (encloses_flat isType.isFlat_of_mem).append
        ((encloses_flat hmiddle).append isBounds.encloses)
    | @pointer _ arguments _ star _ opening' _ isType opens points closes opens' _ encloses
        closes' =>
      have hstar : IsFlat star := isFlat_of_isTypeToken (isTypeToken_of_isStar points)
      rw [List.append_assoc]
      refine (encloses_flat isType.isFlat_of_mem).append ?_
      refine @Encloses.parens _ _ (star :: middle) _ opens
        (encloses_flat (List.forall_mem_cons.mpr ⟨hstar, hmiddle⟩)) closes ?_
      exact encloses.parens opens' closes' (encloses_nil.mpr rfl)

end Declarator

/-- The tokens of a parameter are a part. -/
theorem Spells.isPart {part : List Token} {p : Parameter} (h : Spells part p) : IsPart part := by
  have hname : ∀ {name : Token}, name.kind = .identifier → ∀ t ∈ [name], IsFlat t :=
    fun isName => List.forall_mem_singleton.mpr (isFlat_of_isIdentifier isName)
  cases h with
  | named isType isName => exact (Declarator.plain isType).isPart _ (hname isName)
  | unnamed isType _ => exact isPart_flat isType.ne_nil isType.isFlat_of_mem
  | array isType isName isBounds bounded =>
    exact (Declarator.array isType isBounds.arrayBounds bounded).isPart _ (hname isName)
  | @pointer type arguments opening star name closing opening' closing' isType opens points isName
      closes opens' plain balanced closes' =>
    have hpart := (Declarator.pointer isType opens points closes opens' (balanced.nests plain)
      balanced closes').isPart _ (hname isName)
    rwa [List.append_assoc] at hpart
  | ellipsis ha hb hc =>
    refine isPart_flat (List.cons_ne_nil _ _) ?_
    rw [List.forall_mem_cons, List.forall_mem_cons, List.forall_mem_singleton]
    exact ⟨isFlat_of_isSymbol ha (by decide), isFlat_of_isSymbol hb (by decide),
      isFlat_of_isSymbol hc (by decide)⟩

/-! ## Reading a part -/

theorem splitFunctionPointer?_eq_none {part : List Token} (h : ∀ t ∈ part, t.isSymbol "(" = false) :
    splitFunctionPointer? part = none := by
  induction part with
  | nil => rfl
  | cons a part ih =>
    match part with
    | [] | [_] => rfl
    | b :: c :: ts =>
      obtain ⟨ha, hpart⟩ := List.forall_mem_cons.mp h
      rw [splitFunctionPointer?, ha, ih hpart]
      rfl

/-- The name of a function pointer stands behind the first parenthesis and star. -/
theorem splitFunctionPointer?_append {opening star name : Token} (type ts : List Token)
    (h : ∀ t ∈ type, t.isSymbol "(" = false) (opens : opening.isSymbol "(" = true)
    (points : star.isSymbol "*" = true) (isName : name.kind = .identifier) :
    splitFunctionPointer? (type ++ opening :: star :: name :: ts) =
      some (type ++ [opening, star], name, ts) := by
  induction type with
  | nil => simp [splitFunctionPointer?, opens, points, isName]
  | cons t type ih =>
    obtain ⟨ht, htype⟩ := List.forall_mem_cons.mp h
    obtain ⟨u, v, us, hcons⟩ : ∃ u v us, type ++ opening :: star :: name :: ts = u :: v :: us := by
      cases type with
      | nil => exact ⟨_, _, _, rfl⟩
      | cons u type =>
        cases type with
        | nil => exact ⟨_, _, _, rfl⟩
        | cons v type => exact ⟨_, _, _, rfl⟩
    rw [List.cons_append, hcons, splitFunctionPointer?, ← hcons, ih htype, ht]
    rfl

theorem splitArray?_eq_none {part : List Token} (h : ∀ t ∈ part, t.isSymbol "[" = false) :
    splitArray? part = none := by
  have hright : part.dropWhile (fun t => !t.isSymbol "[") = [] := by
    rw [List.dropWhile_eq_nil_iff]
    intro t ht
    rw [h t ht]
    rfl
  simp only [splitArray?, hright]
  split <;> rfl

/-- A part is cut at its first square bracket. -/
theorem splitArray?_append_cons {opening : Token} (left ts : List Token)
    (h : ∀ t ∈ left, t.isSymbol "[" = false) (opens : opening.isSymbol "[" = true) :
    splitArray? (left ++ opening :: ts) = match left.getLast? with
      | some name =>
        if decide (2 ≤ left.length) && name.kind == .identifier then
          some (left.dropLast, name, opening :: ts)
        else none
      | none => none := by
  have hplain : ∀ t ∈ left, (!t.isSymbol "[") = true := by
    intro t ht
    rw [h t ht]
    rfl
  have hleft : (left ++ opening :: ts).takeWhile (fun t => !t.isSymbol "[") = left := by
    rw [List.takeWhile_append_of_pos hplain, List.takeWhile_cons, opens]
    exact List.append_nil _
  have hright : (left ++ opening :: ts).dropWhile (fun t => !t.isSymbol "[") = opening :: ts := by
    rw [List.dropWhile_append_of_pos hplain, List.dropWhile_cons, opens]
    rfl
  rw [splitArray?, hleft, hright]
  cases left.getLast? with
  | none => rfl
  | some name => rfl

/-- The name of an array stands before the first square bracket. -/
theorem splitArray?_append {opening name : Token} (type ts : List Token)
    (h : ∀ t ∈ type, t.isSymbol "[" = false) (hne : type ≠ [])
    (opens : opening.isSymbol "[" = true) (isName : name.kind = .identifier) :
    splitArray? (type ++ name :: opening :: ts) = some (type, name, opening :: ts) := by
  have hplain : ∀ t ∈ type ++ [name], t.isSymbol "[" = false :=
    List.forall_mem_append.mpr
      ⟨h, List.forall_mem_singleton.mpr (isSymbol_of_kind isName (by decide))⟩
  rw [List.append_cons, splitArray?_append_cons _ ts hplain opens]
  simp [isName, Nat.succ_le_iff, List.length_pos_iff, hne]

theorem splitPlain?_append {type : List Token} {name : Token}
    (hne : type ≠ []) (isName : name.kind = .identifier)
    (h : ∀ t ∈ type.getLast?, announcesTag t = false) :
    splitPlain? (type ++ [name]) = some (type, name, []) := by
  have hprevious := List.getLast?_eq_some_getLast hne
  rw [splitPlain?, List.getLast?_concat, List.dropLast_concat, hprevious]
  simp [isName, h _ hprevious]

/-- A part that ends with no name is read as a type. -/
theorem EndsNameless.splitPlain?_eq_none {type : List Token} (h : EndsNameless type) :
    splitPlain? type = none := by
  cases h with
  | word t => rfl
  | @tag type t tag announces =>
    have hcut : type ++ [t, tag] = (type ++ [t]) ++ [tag] := by simp
    rw [splitPlain?, hcut, List.getLast?_concat, List.dropLast_concat, List.getLast?_concat]
    simp [announces]
  | @mark type t h =>
    rw [splitPlain?, List.getLast?_concat]
    split
    · next name _ hname _ =>
      cases hname
      simp [h]
    · rfl

theorem parameter_of_splitFunctionPointer? {part left right : List Token} {name : Token}
    (h : splitFunctionPointer? part = some (left, name, right)) :
    parameter part = ⟨typeText (left ++ right), some name.text⟩ := by
  rw [parameter, h]
  rfl

theorem parameter_of_splitArray? {part left right : List Token} {name : Token}
    (hnone : splitFunctionPointer? part = none)
    (h : splitArray? part = some (left, name, right)) :
    parameter part = ⟨typeText (left ++ right), some name.text⟩ := by
  rw [parameter, hnone, h]
  rfl

/-- A part without brackets is a plain parameter. -/
theorem parameter_flat {part : List Token} (h : ∀ t ∈ part, IsFlat t) :
    parameter part = match splitPlain? part with
      | some (left, name, right) => ⟨typeText (left ++ right), some name.text⟩
      | none => ⟨typeText part, none⟩ := by
  rw [parameter, splitFunctionPointer?_eq_none fun t ht => h t ht "(" (by simp),
    splitArray?_eq_none fun t ht => h t ht "[" (by simp)]
  rfl

/-- The tokens of a parameter are read as that parameter. -/
theorem Spells.parameter_eq {part : List Token} {p : Parameter} (h : Spells part p) :
    parameter part = p := by
  cases h with
  | @named type name isType isName =>
    have hname : IsFlat name := isFlat_of_isIdentifier isName
    rw [parameter_flat (List.forall_mem_append.mpr
        ⟨isType.isFlat_of_mem, List.forall_mem_singleton.mpr hname⟩),
      splitPlain?_append isType.ne_nil isName
        (isType.announcesTag_getLast? fun _ => announcesTag_of_isParameterMark)]
    simp only [List.append_nil]
  | unnamed isType nameless =>
    rw [parameter_flat isType.isFlat_of_mem, nameless.splitPlain?_eq_none]
  | @array type bounds name isType isName isBounds bounded =>
    have hflat := isType.isFlat_of_mem
    have hparen : ∀ t ∈ type ++ name :: bounds, t.isSymbol "(" = false := by
      refine List.forall_mem_append.mpr ⟨fun t ht => hflat t ht "(" (by simp), ?_⟩
      refine List.forall_mem_cons.mpr ⟨isSymbol_of_kind isName (by decide), ?_⟩
      exact fun t ht => (isBounds.isPlain_of_mem t ht).1
    cases isBounds with
    | nil => exact absurd rfl bounded
    | cons opens _ _ _ =>
      have hbracket : ∀ t ∈ type, t.isSymbol "[" = false := fun t ht => hflat t ht "[" (by simp)
      exact parameter_of_splitArray? (splitFunctionPointer?_eq_none hparen)
        (splitArray?_append type _ hbracket isType.ne_nil opens isName)
  | @pointer type arguments opening star name closing opening' closing' isType opens points isName
      _ _ _ _ _ =>
    rw [parameter_of_splitFunctionPointer? (splitFunctionPointer?_append type _
      (fun t ht => isType.isFlat_of_mem t ht "(" (by simp)) opens (isSymbol_of_isStar points)
      isName), List.append_assoc]
    rfl
  | @ellipsis a b c ha hb hc =>
    have hflat : ∀ {t : Token}, t.isSymbol "." = true → IsFlat t := fun ht =>
      isFlat_of_isSymbol ht (by decide)
    have hkind : c.kind ≠ .identifier := by
      rcases Token.kind_of_isSymbol hc with hk | hk <;> rw [hk] <;> decide
    rw [parameter_flat (by
        rw [List.forall_mem_cons, List.forall_mem_cons, List.forall_mem_singleton]
        exact ⟨hflat ha, hflat hb, hflat hc⟩),
      show splitPlain? [a, b, c] = none from (EndsNameless.mark [a, b] hkind).splitPlain?_eq_none]
    simp only [typeText, List.map_cons, List.map_nil, Token.text_of_isSymbol ha,
      Token.text_of_isSymbol hb, Token.text_of_isSymbol hc]
    rfl

/-! ## Reading the list -/

/-- The tokens are the parts with commas between them. -/
inductive Separated : List (List Token) → List Token → Prop
  | one (part : List Token) : Separated [part] part
  | cons (part : List Token) {parts : List (List Token)} {comma : Token} {rest : List Token}
      (separates : comma.isSymbol "," = true) (more : Separated parts rest) :
      Separated (part :: parts) (part ++ comma :: rest)

namespace Separated

variable {parts : List (List Token)} {tokens : List Token} (h : Separated parts tokens)
include h

theorem ne_nil : parts ≠ [] := by
  cases h <;> exact List.cons_ne_nil _ _

theorem subset_of_mem {part : List Token} (hpart : part ∈ parts) : part ⊆ tokens := by
  induction h with
  | one first =>
    rw [List.mem_singleton.mp hpart]
    exact List.Subset.refl _
  | cons first _ _ ih =>
    rcases List.mem_cons.mp hpart with rfl | hpart
    · exact List.subset_append_left _ _
    · exact fun t ht => List.mem_append_right _ (List.mem_cons_of_mem _ (ih hpart ht))

theorem tokens_ne_nil (hparts : ∀ part ∈ parts, part ≠ []) : tokens ≠ [] := by
  rintro rfl
  obtain ⟨part, others, rfl⟩ := List.exists_cons_of_ne_nil h.ne_nil
  have hempty := h.subset_of_mem List.mem_cons_self
  exact hparts part List.mem_cons_self (List.subset_nil.mp hempty)

/-- Every token is one of a part or a comma. -/
theorem mem_or_isSymbol {t : Token} (ht : t ∈ tokens) :
    (∃ part ∈ parts, t ∈ part) ∨ t.isSymbol "," = true := by
  induction h with
  | one part => exact Or.inl ⟨part, List.mem_cons_self, ht⟩
  | cons part separates _ ih =>
    rcases List.mem_append.mp ht with ht | ht
    · exact Or.inl ⟨part, List.mem_cons_self, ht⟩
    · rcases List.mem_cons.mp ht with rfl | ht
      · exact Or.inr separates
      · exact (ih ht).imp_left fun ⟨other, hother, ht⟩ =>
          ⟨other, List.mem_cons_of_mem _ hother, ht⟩

/-- A list of parts is cut into these parts. -/
theorem cons_splitParts (hparts : ∀ part ∈ parts, Nests 0 0 part) :
    (splitParts 0 tokens).1 :: (splitParts 0 tokens).2 = parts := by
  induction h with
  | one part => rw [(hparts part List.mem_cons_self).splitParts_eq]
  | cons part separates _ ih =>
    obtain ⟨hpart, hrest⟩ := List.forall_mem_cons.mp hparts
    rw [hpart.splitParts_append, splitParts, separates, ← ih hrest]
    simp

theorem encloses (hparts : ∀ part ∈ parts, Encloses 0 part) : Encloses 0 tokens := by
  induction h with
  | one part => exact hparts part List.mem_cons_self
  | cons part separates _ ih =>
    obtain ⟨hpart, hrest⟩ := List.forall_mem_cons.mp hparts
    exact hpart.append (encloses_cons_plain (isPlain_of_isSymbol separates (by simp)) (ih hrest))

/-- A list of parts is read part by part, unless the word `void` is alone in it. -/
theorem parameters_eq_of_nests (hparts : ∀ part ∈ parts, part ≠ [] ∧ Nests 0 0 part) :
    parameters tokens = if isVoidList parts then [] else parts.map parameter := by
  have hlast : parts.getLast? ≠ some [] := fun hlast =>
    (hparts [] (List.mem_of_getLast? hlast)).1 rfl
  have hcut : parameterParts tokens = parts := by
    simp only [parameterParts, h.cons_splitParts fun part hpart => (hparts part hpart).2,
      if_neg hlast]
  have hfilter : parts.filter (fun part => !part.isEmpty) = parts := by
    refine List.filter_eq_self.mpr fun part hpart => ?_
    rw [List.isEmpty_eq_false_iff.mpr (hparts part hpart).1]
    rfl
  simp only [parameters, hcut, hfilter]

theorem parameters_eq (hparts : ∀ part ∈ parts, IsPart part) :
    parameters tokens = if isVoidList parts then [] else parts.map parameter :=
  h.parameters_eq_of_nests fun part hpart => ⟨(hparts part hpart).ne_nil, (hparts part hpart).nests⟩

end Separated

theorem Separated.eq_of_singleton {part tokens : List Token} (h : Separated [part] tokens) :
    tokens = part := by
  cases h with
  | one => rfl
  | cons _ _ more => cases more

theorem separated_intercalate {comma : Token} (separates : comma.isSymbol "," = true)
    {parts : List (List Token)} (hne : parts ≠ []) :
    Separated parts ([comma].intercalate parts) := by
  induction parts with
  | nil => exact absurd rfl hne
  | cons part parts ih =>
    cases parts with
    | nil =>
      rw [List.intercalate_singleton]
      exact .one part
    | cons part' parts =>
      rw [List.intercalate_cons_cons, List.append_assoc]
      exact .cons part separates (ih (List.cons_ne_nil _ _))

/-- The tokens of parameters are parts, one for each of them. -/
theorem SpellsAll.exists_parts {tokens : List Token} {ps : List Parameter}
    (h : SpellsAll tokens ps) : ∃ parts, Separated parts tokens ∧ List.Forall₂ Spells parts ps := by
  induction h with
  | @one part p h => exact ⟨[part], .one part, .cons h .nil⟩
  | @cons part rest comma p ps h separates _ ih =>
    obtain ⟨parts, hparts, hspells⟩ := ih
    exact ⟨part :: parts, .cons part separates hparts, .cons h hspells⟩

theorem isPart_of_forall₂_spells {parts : List (List Token)} {ps : List Parameter}
    (h : List.Forall₂ Spells parts ps) : ∀ part ∈ parts, IsPart part := by
  induction h with
  | nil => simp
  | cons h _ ih => exact List.forall_mem_cons.mpr ⟨h.isPart, ih⟩

theorem map_parameter_of_forall₂_spells {parts : List (List Token)} {ps : List Parameter}
    (h : List.Forall₂ Spells parts ps) : parts.map parameter = ps := by
  induction h with
  | nil => rfl
  | cons h _ ih => rw [List.map_cons, h.parameter_eq, ih]

theorem exists_of_isVoidList {parts : List (List Token)} (h : isVoidList parts = true) :
    ∃ t, parts = [[t]] ∧ t.isKeyword "void" = true := by
  unfold isVoidList at h
  split at h
  · next t => exact ⟨t, rfl, h⟩
  · cases h

theorem isFlat_of_isKeyword {t : Token} {word : String} (h : t.isKeyword word = true) :
    IsFlat t := by
  refine isFlat_of_isTypeToken ?_
  rw [isTypeToken, (Bool.and_eq_true_iff.mp h).1]
  rfl

/-- The tokens of a list of parameters are read as these. -/
theorem SpellsList.parameters_eq {tokens : List Token} {ps : List Parameter}
    (h : SpellsList tokens ps) : parameters tokens = ps := by
  cases h with
  | empty => rfl
  | @void t h =>
    have hflat : ∀ u ∈ [t], IsFlat u := List.forall_mem_singleton.mpr (isFlat_of_isKeyword h)
    have hparts : parameterParts [t] = [[t]] := by
      rw [parameterParts, (nests_flat hflat).splitParts_eq]
      rfl
    rw [parameters, hparts]
    simp [isVoidList, h]
  | all h notVoid =>
    obtain ⟨parts, hparts, hspells⟩ := h.exists_parts
    have hvoid : isVoidList parts = false := by
      rw [← Bool.not_eq_true]
      intro hvoid
      obtain ⟨t, rfl, hkeyword⟩ := exists_of_isVoidList hvoid
      rw [notVoid t hparts.eq_of_singleton] at hkeyword
      cases hkeyword
    rw [hparts.parameters_eq (isPart_of_forall₂_spells hspells), hvoid,
      map_parameter_of_forall₂_spells hspells]
    rfl

theorem SpellsAll.encloses {tokens : List Token} {ps : List Parameter} (h : SpellsAll tokens ps) :
    Encloses 0 tokens := by
  obtain ⟨parts, hparts, hspells⟩ := h.exists_parts
  exact hparts.encloses fun part hpart => (isPart_of_forall₂_spells hspells part hpart).encloses

/-- The parentheses of a list of parameters are balanced. -/
theorem SpellsList.encloses {tokens : List Token} {ps : List Parameter} (h : SpellsList tokens ps) :
    Encloses 0 tokens := by
  cases h with
  | empty => exact encloses_nil.mpr rfl
  | void h => exact encloses_flat (List.forall_mem_singleton.mpr (isFlat_of_isKeyword h))
  | all h _ => exact h.encloses

/-! ## Tokens that carry structure -/

section
variable {t : Token}

theorem isSignificant_of_isTypeToken (h : isTypeToken t = true) : t.kind.isSignificant = true := by
  rw [isTypeToken, Bool.or_eq_true, Bool.or_eq_true, Bool.and_eq_true] at h
  rcases h with (h | h) | h
  · rw [beq_iff_eq.mp h]
    rfl
  · rw [beq_iff_eq.mp h]
    rfl
  · rw [beq_iff_eq.mp h.1]
    rfl

theorem isSignificant_of_kind (h : t.kind = .identifier ∨ t.kind = .number) :
    t.kind.isSignificant = true := by
  rcases h with h | h <;> rw [h] <;> rfl

theorem isSignificant_of_isArgumentToken (h : isArgumentToken t = true) :
    t.kind.isSignificant = true := by
  simp only [isArgumentToken, Bool.or_eq_true] at h
  rcases h with (((h | h) | h) | h) | h
  · exact isSignificant_of_isTypeToken (isTypeToken_of_isWord h)
  · exact isSignificant_of_isTypeToken (isTypeToken_of_isStar h)
  all_goals exact Token.isSignificant_of_isSymbol h

end

theorem Bounds.isSignificant_of_mem {bounds : List Token} (h : Bounds bounds) :
    ∀ t ∈ bounds, t.kind.isSignificant = true := by
  induction h with
  | nil => simp
  | cons opens plain closes _ ih =>
    refine List.forall_mem_cons.mpr ⟨Token.isSignificant_of_isSymbol opens, ?_⟩
    refine List.forall_mem_append.mpr ⟨fun t ht => isSignificant_of_kind (plain t ht), ?_⟩
    exact List.forall_mem_cons.mpr ⟨Token.isSignificant_of_isSymbol closes, ih⟩

theorem Spells.isSignificant_of_mem {part : List Token} {p : Parameter} (h : Spells part p) :
    ∀ t ∈ part, t.kind.isSignificant = true := by
  have htype : ∀ {type}, IsParameterType type → ∀ t ∈ type, t.kind.isSignificant = true :=
    fun isType t ht => isSignificant_of_isTypeToken
      (isType.isTypeToken_of_mem (fun _ => isTypeToken_of_isParameterMark) t ht)
  cases h with
  | named isType isName =>
    exact List.forall_mem_append.mpr ⟨htype isType,
      List.forall_mem_singleton.mpr (isSignificant_of_kind (Or.inl isName))⟩
  | unnamed isType _ => exact htype isType
  | array isType isName isBounds _ =>
    exact List.forall_mem_append.mpr ⟨htype isType, List.forall_mem_cons.mpr
      ⟨isSignificant_of_kind (Or.inl isName), isBounds.isSignificant_of_mem⟩⟩
  | pointer isType opens points isName closes opens' plain _ closes' =>
    refine List.forall_mem_append.mpr ⟨htype isType, ?_⟩
    simp only [List.forall_mem_cons, List.forall_mem_append, List.not_mem_nil]
    exact ⟨Token.isSignificant_of_isSymbol opens,
      isSignificant_of_isTypeToken (isTypeToken_of_isStar points),
      isSignificant_of_kind (Or.inl isName), Token.isSignificant_of_isSymbol closes,
      Token.isSignificant_of_isSymbol opens',
      fun t ht => isSignificant_of_isArgumentToken (plain t ht),
      Token.isSignificant_of_isSymbol closes', fun _ hnil => hnil.elim⟩
  | ellipsis ha hb hc =>
    rw [List.forall_mem_cons, List.forall_mem_cons, List.forall_mem_singleton]
    exact ⟨Token.isSignificant_of_isSymbol ha, Token.isSignificant_of_isSymbol hb,
      Token.isSignificant_of_isSymbol hc⟩

theorem SpellsAll.isSignificant_of_mem {tokens : List Token} {ps : List Parameter}
    (h : SpellsAll tokens ps) : ∀ t ∈ tokens, t.kind.isSignificant = true := by
  induction h with
  | one h => exact h.isSignificant_of_mem
  | cons h separates _ ih =>
    refine List.forall_mem_append.mpr ⟨h.isSignificant_of_mem, ?_⟩
    exact List.forall_mem_cons.mpr ⟨Token.isSignificant_of_isSymbol separates, ih⟩

theorem SpellsList.isSignificant_of_mem {tokens : List Token} {ps : List Parameter}
    (h : SpellsList tokens ps) : ∀ t ∈ tokens, t.kind.isSignificant = true := by
  cases h with
  | empty => simp
  | void h =>
    refine List.forall_mem_singleton.mpr ?_
    rw [beq_iff_eq.mp (Bool.and_eq_true_iff.mp h).1]
    rfl
  | all h _ => exact h.isSignificant_of_mem

end HeaderLint
