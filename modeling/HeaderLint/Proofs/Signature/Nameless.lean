import HeaderLint.Proofs.Signature.Complete

/-!
# Parameters without their names

A parameter with a name is a declarator: what stands before the name and what stands behind it
(`Declarator`).  Without the name, both parts stand side by side, and the rules of `parameter`
look for a name in what is left.

* With the name the type is what is left without it (`Declarator.parameter_named`).
* Without the name it is the same type, with no name, if the part before the name ends with none
  (`Declarator.parameter_bare`).  Otherwise the last word before the name is taken for the name
  (`Declarator.parameter_misread`).

None of this is about a part behind the name that shows a name itself, such as the arguments of a
function pointer when one of them is a function pointer too.
-/

namespace HeaderLint

/-! ## Names in a part -/

/-- An identifier stands behind a parenthesis and a star. -/
def NamesPointer (ts : List Token) : Prop :=
  ∃ before opening star name after, ts = before ++ opening :: star :: name :: after ∧
    opening.isSymbol "(" = true ∧ star.isSymbol "*" = true ∧ name.kind = .identifier

/-- An identifier stands directly before the first square bracket. -/
def NamesArray (ts : List Token) : Prop :=
  ∃ before name opening after, ts = before ++ name :: opening :: after ∧
    (∀ t ∈ before, t.isSymbol "[" = false) ∧ name.kind = .identifier ∧
    opening.isSymbol "[" = true

/-- The last token but one announces a tag. -/
def EndsWithTag (type : List Token) : Prop := type.dropLast.getLast?.any announcesTag = true

instance (type : List Token) : Decidable (EndsWithTag type) :=
  inferInstanceAs (Decidable (_ = true))

section
variable {a b c : Token} {ts : List Token}

theorem not_namesPointer_short (h : ts.length < 3) : ¬NamesPointer ts := by
  rintro ⟨before, opening, star, name, after, rfl, -⟩
  simp at h
  omega

theorem namesPointer_cons_iff :
    NamesPointer (a :: b :: c :: ts) ↔
      (a.isSymbol "(" = true ∧ b.isSymbol "*" = true ∧ c.kind = .identifier) ∨
        NamesPointer (b :: c :: ts) := by
  constructor
  · rintro ⟨before, opening, star, name, after, hts, hname⟩
    cases before with
    | nil =>
      obtain ⟨rfl, rfl, rfl, -⟩ : a = opening ∧ b = star ∧ c = name ∧ ts = after := by
        simpa using hts
      exact Or.inl hname
    | cons u before =>
      exact Or.inr ⟨before, opening, star, name, after, (List.cons_eq_cons.mp hts).2, hname⟩
  · rintro (h | ⟨before, opening, star, name, after, hts, hname⟩)
    · exact ⟨[], a, b, c, ts, rfl, h⟩
    · exact ⟨a :: before, opening, star, name, after, by rw [hts]; rfl, hname⟩

end

/-- A part is read as a function pointer just when it names one. -/
theorem splitFunctionPointer?_eq_none_iff {ts : List Token} :
    splitFunctionPointer? ts = none ↔ ¬NamesPointer ts := by
  induction ts with
  | nil => exact iff_of_true rfl (not_namesPointer_short (by simp))
  | cons a ts ih =>
    match ts with
    | [] | [_] => exact iff_of_true rfl (not_namesPointer_short (by simp))
    | b :: c :: ts =>
      have hwindow : (a.isSymbol "(" && b.isSymbol "*" && c.kind == .identifier) = true ↔
          a.isSymbol "(" = true ∧ b.isSymbol "*" = true ∧ c.kind = .identifier := by
        rw [Bool.and_eq_true, Bool.and_eq_true, beq_iff_eq, and_assoc]
      rw [splitFunctionPointer?, namesPointer_cons_iff, ← hwindow]
      split
      · next h => simp [h]
      · next h => rw [Option.map_eq_none_iff, ih, or_iff_right h]

instance (ts : List Token) : Decidable (NamesPointer ts) :=
  decidable_of_iff (splitFunctionPointer? ts ≠ none) splitFunctionPointer?_eq_none_iff.not_left

theorem namesArray_cons_iff {t : Token} {ts : List Token} :
    NamesArray (t :: ts) ↔ t.isSymbol "[" = false ∧
      ((t.kind = .identifier ∧ ∃ u ∈ ts.head?, u.isSymbol "[" = true) ∨ NamesArray ts) := by
  constructor
  · rintro ⟨before, name, opening, after, hts, hbefore, isName, opens⟩
    cases before with
    | nil =>
      obtain ⟨rfl, rfl⟩ := List.cons_eq_cons.mp hts
      exact ⟨isSymbol_of_kind isName (by decide), Or.inl ⟨isName, opening, rfl, opens⟩⟩
    | cons u before =>
      obtain ⟨rfl, hrest⟩ := List.cons_eq_cons.mp hts
      obtain ⟨ht, hbefore⟩ := List.forall_mem_cons.mp hbefore
      exact ⟨ht, Or.inr ⟨before, name, opening, after, hrest, hbefore, isName, opens⟩⟩
  · rintro ⟨ht, ⟨isName, opening, hhead, opens⟩ | ⟨before, name, opening, after, rfl, hbefore, h⟩⟩
    · obtain ⟨after, rfl⟩ := List.head?_eq_some_iff.mp hhead
      exact ⟨[], t, opening, after, rfl, by simp, isName, opens⟩
    · exact ⟨t :: before, name, opening, after, rfl, List.forall_mem_cons.mpr ⟨ht, hbefore⟩, h⟩

theorem not_namesArray_nil : ¬NamesArray [] := by
  rintro ⟨before, name, opening, after, hts, -⟩
  exact List.append_ne_nil_of_right_ne_nil before (List.cons_ne_nil name _) hts.symm

instance : (ts : List Token) → Decidable (NamesArray ts)
  | [] => isFalse not_namesArray_nil
  | _ :: ts =>
    have := instDecidableNamesArray ts
    decidable_of_iff _ namesArray_cons_iff.symm

section
variable {ts us : List Token}

theorem NamesPointer.of_append (h : NamesPointer (ts ++ us))
    (hts : ∀ t ∈ ts, t.isSymbol "(" = false) : NamesPointer us := by
  obtain ⟨before, opening, star, name, after, hcut, opens, hname⟩ := h
  rcases List.append_eq_append_iff.mp hcut with ⟨before', rfl, hus⟩ | ⟨ts', rfl, hus⟩
  · exact ⟨before', opening, star, name, after, hus, opens, hname⟩
  · cases ts' with
    | nil => exact ⟨[], opening, star, name, after, hus.symm, opens, hname⟩
    | cons t ts' =>
      obtain ⟨rfl, -⟩ := List.cons_eq_cons.mp hus
      rw [hts opening (by simp)] at opens
      cases opens

/-- Behind tokens without a square bracket no array is read but one that is named there. -/
theorem splitArray?_append_eq_none (hts : ∀ t ∈ ts, t.isSymbol "[" = false)
    (hhead : ∀ t ∈ us.head?, t.isSymbol "[" = false) (hus : ¬NamesArray us) :
    splitArray? (ts ++ us) = none := by
  cases hfind : us.find? (·.isSymbol "[") with
  | none =>
    refine splitArray?_eq_none (List.forall_mem_append.mpr ⟨hts, fun t ht => ?_⟩)
    exact Bool.not_eq_true _ ▸ List.find?_eq_none.mp hfind t ht
  | some opening =>
    obtain ⟨opens, before, after, rfl, hbefore⟩ := List.find?_eq_some_iff_append.mp hfind
    have hplain : ∀ t ∈ before, t.isSymbol "[" = false :=
      fun t ht => Bool.not_eq_true' _ ▸ hbefore t ht
    rw [← List.append_assoc, splitArray?_append_cons _ _
      (List.forall_mem_append.mpr ⟨hts, hplain⟩) opens]
    rcases List.eq_nil_or_concat' before with rfl | ⟨before, name, rfl⟩
    · rw [hhead opening rfl] at opens
      cases opens
    · have hname : name.kind ≠ .identifier := by
        intro hname
        refine hus ⟨before, name, opening, after, by simp, ?_, hname, opens⟩
        exact fun t ht => hplain t (List.mem_append_left _ ht)
      simp [← List.append_assoc, hname]

end

/-! ## Reading a declarator -/

namespace Declarator

variable {left right : List Token} (h : Declarator left right)
include h

/-- Without the name nothing but what stands behind it names a function pointer. -/
theorem namesPointer_right (hname : NamesPointer (left ++ right)) : NamesPointer right := by
  cases h with
  | plain isType => exact hname.of_append fun t ht => isType.isFlat_of_mem t ht "(" (by simp)
  | array isType _ _ => exact hname.of_append fun t ht => isType.isFlat_of_mem t ht "(" (by simp)
  | @pointer type arguments opening star closing opening' closing' isType opens points closes =>
    rw [List.append_assoc] at hname
    have hrest := hname.of_append fun t ht => isType.isFlat_of_mem t ht "(" (by simp)
    rcases namesPointer_cons_iff.mp hrest with ⟨-, -, hclosing⟩ | hrest
    · rcases Token.kind_of_isSymbol closes with hkind | hkind <;> rw [hkind] at hclosing <;>
        cases hclosing
    · refine @NamesPointer.of_append [star] _ hrest (List.forall_mem_singleton.mpr ?_)
      exact Token.isSymbol_of_ne (isSymbol_of_isStar points) (by decide)

/-- What stands behind a name ends with no name. -/
theorem exists_concat_right (hne : right ≠ []) :
    ∃ ts t, right = ts ++ [t] ∧ t.kind ≠ .identifier := by
  have hkind : ∀ {t : Token} {symbol : String}, t.isSymbol symbol = true →
      t.kind ≠ .identifier := by
    intro t symbol hsymbol
    rcases Token.kind_of_isSymbol hsymbol with hkind | hkind <;> rw [hkind] <;> decide
  cases h with
  | plain => exact absurd rfl hne
  | array _ isBounds _ =>
    obtain ⟨ts, closing, rfl, closes⟩ := isBounds.exists_concat hne
    exact ⟨ts, closing, rfl, hkind closes⟩
  | pointer _ _ _ _ _ _ _ closes' => exact ⟨_ :: _ :: _, _, rfl, hkind closes'⟩

/-- With the name the type is what is left without it. -/
theorem parameter_named {name : Token} (isName : name.kind = .identifier)
    (hpointer : ¬NamesPointer right) :
    parameter (left ++ name :: right) = ⟨typeText (left ++ right), some name.text⟩ := by
  cases h with
  | plain isType =>
    rw [List.append_nil]
    exact (Spells.named isType isName).parameter_eq
  | @array _ bounds isType isBounds bounded =>
    have hflat := isType.isFlat_of_mem
    have hname : ∀ t ∈ left ++ [name], t.isSymbol "(" = false :=
      List.forall_mem_append.mpr ⟨fun t ht => hflat t ht "(" (by simp),
        List.forall_mem_singleton.mpr (isSymbol_of_kind isName (by decide))⟩
    have hnone : splitFunctionPointer? (left ++ name :: right) = none := by
      rw [splitFunctionPointer?_eq_none_iff, List.append_cons]
      exact fun hpart => hpointer (hpart.of_append hname)
    obtain ⟨opening, ts, rfl, opens⟩ := isBounds.exists_cons bounded
    exact parameter_of_splitArray? hnone
      (splitArray?_append left _ (fun t ht => hflat t ht "[" (by simp)) isType.ne_nil opens isName)
  | @pointer type _ opening star _ _ _ isType opens points =>
    have hparen : ∀ t ∈ type, t.isSymbol "(" = false :=
      fun t ht => isType.isFlat_of_mem t ht "(" (by simp)
    rw [List.append_assoc]
    exact parameter_of_splitFunctionPointer?
      (splitFunctionPointer?_append type _ hparen opens (isSymbol_of_isStar points) isName)

/-- Without the name the type is the same, if the part before the name ends with none. -/
theorem parameter_bare (hpointer : ¬NamesPointer right) (harray : ¬NamesArray right)
    (htag : right ≠ [] → ¬EndsWithTag left) (hnameless : EndsNameless left) :
    parameter (left ++ right) = ⟨typeText (left ++ right), none⟩ := by
  have hcut : splitFunctionPointer? (left ++ right) = none :=
    splitFunctionPointer?_eq_none_iff.mpr fun hname => hpointer (h.namesPointer_right hname)
  have hcut' : splitArray? (left ++ right) = none := by
    cases h with
    | plain isType =>
      rw [List.append_nil]
      exact splitArray?_eq_none fun t ht => isType.isFlat_of_mem t ht "[" (by simp)
    | array isType isBounds bounded =>
      have hflat : ∀ t ∈ left, t.isSymbol "[" = false :=
        fun t ht => isType.isFlat_of_mem t ht "[" (by simp)
      obtain ⟨opening, ts, rfl, opens⟩ := isBounds.exists_cons bounded
      rw [splitArray?_append_cons left ts hflat opens]
      cases hnameless with
      | word t => rfl
      | tag words tag announces =>
        refine absurd ?_ (htag (List.cons_ne_nil opening ts))
        simp [EndsWithTag, announces]
      | mark words hmark => simp [hmark]
    | @pointer type _ opening star closing _ _ isType opens points closes =>
      refine splitArray?_append_eq_none ?_ ?_ harray
      · refine List.forall_mem_append.mpr ⟨fun t ht => isType.isFlat_of_mem t ht "[" (by simp), ?_⟩
        refine List.forall_mem_cons.mpr ⟨Token.isSymbol_of_ne opens (by decide), ?_⟩
        exact List.forall_mem_singleton.mpr
          (Token.isSymbol_of_ne (isSymbol_of_isStar points) (by decide))
      · rintro t ⟨⟩
        exact Token.isSymbol_of_ne closes (by decide)
  have hcut'' : splitPlain? (left ++ right) = none := by
    by_cases hne : right = []
    · rw [hne, List.append_nil]
      exact hnameless.splitPlain?_eq_none
    · obtain ⟨ts, t, rfl, hkind⟩ := h.exists_concat_right hne
      rw [← List.append_assoc]
      exact (EndsNameless.mark _ hkind).splitPlain?_eq_none
  rw [parameter, hcut, hcut', hcut'']
  rfl

/-- Without the name the last word of the part before it is taken for the name, if it may be
one. -/
theorem parameter_misread (hpointer : ¬NamesPointer right) {words : List Token} {name : Token}
    (hleft : left = words ++ [name]) (hne : words ≠ []) (isName : name.kind = .identifier)
    (htag : ∀ t ∈ words.getLast?, announcesTag t = false) :
    parameter (left ++ right) = ⟨typeText (words ++ right), some name.text⟩ := by
  have hcut : splitFunctionPointer? (left ++ right) = none :=
    splitFunctionPointer?_eq_none_iff.mpr fun hname => hpointer (h.namesPointer_right hname)
  cases h with
  | plain isType =>
    rw [List.append_nil, parameter_flat isType.isFlat_of_mem, hleft,
      splitPlain?_append hne isName htag]
  | array isType isBounds bounded =>
    have hflat : ∀ t ∈ left, t.isSymbol "[" = false :=
      fun t ht => isType.isFlat_of_mem t ht "[" (by simp)
    obtain ⟨opening, ts, rfl, opens⟩ := isBounds.exists_cons bounded
    rw [hleft] at hflat hcut ⊢
    refine parameter_of_splitArray? hcut ?_
    rw [List.append_assoc]
    exact splitArray?_append words ts (fun t ht => hflat t (List.mem_append_left _ ht)) hne opens
      isName
  | @pointer _ _ _ star _ _ _ _ _ points =>
    have hlast : star = name := by simpa using congrArg List.getLast? hleft
    rw [← hlast, beq_iff_eq.mp (Bool.and_eq_true_iff.mp points).1] at isName
    cases isName

end Declarator

/-- A type ends with no name, or its last word may be taken for one. -/
theorem endsNameless_or_name {type : List Token} (hne : type ≠ []) :
    EndsNameless type ∨ ∃ words name, type = words ++ [name] ∧ words ≠ [] ∧
      name.kind = .identifier ∧ ∀ t ∈ words.getLast?, announcesTag t = false := by
  obtain ⟨words, name, rfl⟩ := (List.eq_nil_or_concat' type).resolve_left hne
  by_cases hkind : name.kind = .identifier
  · rcases List.eq_nil_or_concat' words with rfl | ⟨words, word, rfl⟩
    · exact Or.inl (.word name)
    · cases hword : announcesTag word with
      | true =>
        rw [List.append_assoc]
        exact Or.inl (.tag words name hword)
      | false =>
        refine Or.inr ⟨_, name, rfl, by simp, hkind, ?_⟩
        simpa using hword
  · exact Or.inl (.mark words hkind)

end HeaderLint
