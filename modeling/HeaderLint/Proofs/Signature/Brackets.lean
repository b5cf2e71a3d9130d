import HeaderLint.Proofs.Signature.Grammar

/-!
# Brackets in a list of parameters

A list of parameters is cut at its commas outside of brackets, and it ends with the parenthesis
that closes it.  Tokens may stand in one part of it if neither happens among them.

* Tokens nest (`Nests`) if they lead from one depth of brackets to another with no comma outside
  of brackets.  Tokens that lead back to where they start stay in one part
  (`Nests.splitParts_append`).
* `Encloses` says that their parentheses are balanced, and it is closed under appending
  (`Encloses.append`, `Encloses.parens`).

Both hold of tokens without brackets (`IsFlat`) and of the bounds of an array (`ArrayBounds`).
-/

namespace HeaderLint

/-! ## Tokens without brackets -/

section
variable {t : Token} {symbol : String}

/-- A token of a type is no symbol but a star or an ampersand. -/
theorem isSymbol_of_isTypeToken (h : isTypeToken t = true) (hstar : symbol ≠ "*")
    (hand : symbol ≠ "&") : t.isSymbol symbol = false := by
  rw [← Bool.not_eq_true]
  intro hsymbol
  rw [isTypeToken, Token.text_of_isSymbol hsymbol, beq_false_of_ne hstar, beq_false_of_ne hand]
    at h
  rcases Token.kind_of_isSymbol hsymbol with hkind | hkind <;> rw [hkind] at h <;> cases h

theorem isSymbol_of_kind {kind : TokenKind} (h : t.kind = kind)
    (hkind : kind ∉ [TokenKind.operator, .punctuation]) : t.isSymbol symbol = false := by
  rw [← Bool.not_eq_true]
  intro hsymbol
  rcases Token.kind_of_isSymbol hsymbol with hk | hk
  · exact hkind (by rw [← h, hk]; exact List.mem_cons_self)
  · exact hkind (by rw [← h, hk]; exact List.mem_cons_of_mem _ List.mem_cons_self)

end

/-- The token is neither a bracket nor a comma, a brace or a semicolon. -/
def IsFlat (t : Token) : Prop :=
  ∀ symbol ∈ ["(", ")", "[", "]", ",", "\x7b", "\x7d", ";"], t.isSymbol symbol = false

theorem isFlat_of_isTypeToken {t : Token} (h : isTypeToken t = true) : IsFlat t := by
  intro symbol hsymbol
  refine isSymbol_of_isTypeToken h ?_ ?_ <;> rintro rfl <;> exact absurd hsymbol (by decide)

theorem isSymbol_of_isStar {t : Token} (h : isStar t = true) : t.isSymbol "*" = true := by
  obtain ⟨hkind, htext⟩ := Bool.and_eq_true_iff.mp h
  rw [Token.isSymbol, hkind, htext]
  rfl

theorem isFlat_of_kind {t : Token} {kind : TokenKind} (h : t.kind = kind)
    (hkind : kind ∉ [TokenKind.operator, .punctuation]) : IsFlat t :=
  fun _ _ => isSymbol_of_kind h hkind

theorem isFlat_of_isIdentifier {t : Token} (h : t.kind = .identifier) : IsFlat t :=
  isFlat_of_kind h (by decide)

theorem isFlat_of_isSymbol {t : Token} {symbol : String} (h : t.isSymbol symbol = true)
    (hne : symbol ∉ ["(", ")", "[", "]", ",", "\x7b", "\x7d", ";"]) : IsFlat t := by
  intro other hother
  refine Token.isSymbol_of_ne h ?_
  rintro rfl
  exact hne hother

/-! ## Cutting the list -/

/-- From a depth of brackets the tokens lead to another, and no comma stands outside of
brackets. -/
def Nests (depth after : Nat) : List Token → Prop
  | [] => depth = after
  | t :: ts => (t.isSymbol "," = true → depth ≠ 0) ∧ Nests (bracketDepth depth t) after ts

instance : (depth after : Nat) → (ts : List Token) → Decidable (Nests depth after ts)
  | depth, after, [] => inferInstanceAs (Decidable (depth = after))
  | depth, after, t :: ts =>
    have : Decidable (Nests (bracketDepth depth t) after ts) := instDecidableNests _ after ts
    inferInstanceAs (Decidable (_ ∧ _))

theorem Nests.append {depth middle after : Nat} {ts us : List Token}
    (hts : Nests depth middle ts) (hus : Nests middle after us) : Nests depth after (ts ++ us) := by
  induction ts generalizing depth with
  | nil =>
    cases hts
    exact hus
  | cons t ts ih => exact ⟨hts.1, ih hts.2⟩

/-- Tokens that lead back to where no bracket is open stay in one part. -/
theorem Nests.splitParts_append {depth : Nat} {ts : List Token} (h : Nests depth 0 ts)
    (us : List Token) :
    splitParts depth (ts ++ us) = (ts ++ (splitParts 0 us).1, (splitParts 0 us).2) := by
  induction ts generalizing depth with
  | nil =>
    cases h
    rfl
  | cons t ts ih =>
    obtain ⟨hcomma, hts⟩ := h
    rw [List.cons_append, splitParts, if_neg, ih hts]
    · rfl
    · rw [Bool.and_eq_true, beq_iff_eq]
      exact fun hcut => hcomma hcut.1 hcut.2

theorem Nests.splitParts_eq {ts : List Token} (h : Nests 0 0 ts) : splitParts 0 ts = (ts, []) := by
  have happend := h.splitParts_append []
  rwa [List.append_nil, splitParts, List.append_nil] at happend

theorem bracketDepth_of_isFlat {t : Token} (h : IsFlat t) (depth : Nat) :
    bracketDepth depth t = depth := by
  rw [bracketDepth, h "(" (by simp), h ")" (by simp), h "[" (by simp), h "]" (by simp)]
  rfl

theorem nests_flat {depth : Nat} {ts : List Token} (h : ∀ t ∈ ts, IsFlat t) :
    Nests depth depth ts := by
  induction ts with
  | nil => rfl
  | cons t ts ih =>
    obtain ⟨ht, hts⟩ := List.forall_mem_cons.mp h
    refine ⟨?_, ?_⟩
    · rw [ht "," (by simp)]
      exact fun hcomma => absurd hcomma Bool.false_ne_true
    · rw [bracketDepth_of_isFlat ht]
      exact ih hts

section
variable {t : Token} {ts : List Token} {depth after : Nat}

theorem nests_open {symbol : String} (ht : t.isSymbol symbol = true)
    (hsymbol : symbol = "(" ∨ symbol = "[") (h : Nests (depth + 1) after ts) :
    Nests depth after (t :: ts) := by
  have hcomma : t.isSymbol "," = false :=
    Token.isSymbol_of_ne ht (by rcases hsymbol with rfl | rfl <;> decide)
  have hdepth : bracketDepth depth t = depth + 1 := by
    rcases hsymbol with rfl | rfl <;> simp [bracketDepth, ht]
  refine ⟨?_, ?_⟩
  · rw [hcomma]
    exact fun hfalse => absurd hfalse Bool.false_ne_true
  · rw [hdepth]
    exact h

theorem nests_close {symbol : String} (ht : t.isSymbol symbol = true)
    (hsymbol : symbol = ")" ∨ symbol = "]") (h : Nests depth after ts) :
    Nests (depth + 1) after (t :: ts) := by
  refine ⟨fun _ => depth.succ_ne_zero, ?_⟩
  have hopen : t.isSymbol "(" = false ∧ t.isSymbol "[" = false := by
    rcases hsymbol with rfl | rfl <;>
      exact ⟨Token.isSymbol_of_ne ht (by decide), Token.isSymbol_of_ne ht (by decide)⟩
  have hdepth : bracketDepth (depth + 1) t = depth := by
    rcases hsymbol with rfl | rfl <;> simp [bracketDepth, ht, hopen]
  rw [hdepth]
  exact h

end

theorem isArgumentToken_cases {t : Token} (h : isArgumentToken t = true)
    (hopen : t.isSymbol "(" = false) (hclose : t.isSymbol ")" = false) :
    IsFlat t ∨ t.isSymbol "," = true := by
  rw [isArgumentToken, hopen, hclose, Bool.or_false, Bool.or_false, Bool.or_eq_true,
    Bool.or_eq_true] at h
  rcases h with (h | h) | h
  · exact Or.inl (isFlat_of_isTypeToken (isTypeToken_of_isWord h))
  · exact Or.inl (isFlat_of_isTypeToken (isTypeToken_of_isStar h))
  · exact Or.inr h

/-- Inside brackets the arguments of a function pointer are no list to cut. -/
theorem Encloses.nests {depth : Nat} {ts : List Token} (h : Encloses depth ts)
    (hplain : ∀ t ∈ ts, isArgumentToken t = true) : Nests (depth + 1) 1 ts := by
  induction ts generalizing depth with
  | nil =>
    rw [encloses_nil.mp h]
    rfl
  | cons t ts ih =>
    obtain ⟨ht, hts⟩ := List.forall_mem_cons.mp hplain
    cases hopen : t.isSymbol "(" with
    | true => exact nests_open hopen (Or.inl rfl) (ih ((encloses_open hopen).mp h) hts)
    | false =>
      cases hclose : t.isSymbol ")" with
      | true =>
        cases depth with
        | zero => exact absurd h (not_encloses_close hclose)
        | succ depth =>
          exact nests_close hclose (Or.inl rfl) (ih ((encloses_close hclose).mp h) hts)
      | false =>
        obtain ⟨-, hrest⟩ := (encloses_other hopen hclose).mp h
        refine ⟨fun _ => depth.succ_ne_zero, ?_⟩
        have hdepth : bracketDepth (depth + 1) t = depth + 1 := by
          rcases isArgumentToken_cases ht hopen hclose with hflat | hcomma
          · exact bracketDepth_of_isFlat hflat _
          · have hsquare : t.isSymbol "[" = false ∧ t.isSymbol "]" = false :=
              ⟨Token.isSymbol_of_ne hcomma (by decide), Token.isSymbol_of_ne hcomma (by decide)⟩
            simp [bracketDepth, hopen, hclose, hsquare]
        rw [hdepth]
        exact ih hrest hts

/-! ## Parentheses -/

theorem Encloses.append {depth : Nat} {ts us : List Token} (hts : Encloses 0 ts)
    (hus : Encloses depth us) : Encloses depth (ts ++ us) := by
  have hcloses := hts.closes
  refine ⟨?_, ?_, List.forall_mem_append.mpr ⟨hts.plain, hus.plain⟩⟩
  · intro vs hvs
    rcases List.prefix_or_prefix_of_prefix hvs (List.prefix_append ts us) with hshort | ⟨ws, rfl⟩
    · have hbelow := hts.neverBelow vs hshort
      omega
    · have hbelow := hus.neverBelow ws ((List.prefix_append_right_inj ts).mp hvs)
      rw [List.countP_append, List.countP_append]
      omega
  · have hcloses' := hus.closes
    rw [List.countP_append, List.countP_append]
    omega

/-- The token is no parenthesis, no brace and no semicolon. -/
def IsPlain (t : Token) : Prop :=
  t.isSymbol "(" = false ∧ t.isSymbol ")" = false ∧ t.isBoundary = false

theorem IsFlat.isPlain {t : Token} (h : IsFlat t) : IsPlain t := by
  refine ⟨h "(" (by simp), h ")" (by simp), ?_⟩
  rw [Token.isBoundary, h "\x7b" (by simp), h "\x7d" (by simp), h ";" (by simp)]
  rfl

theorem isPlain_of_isSymbol {t : Token} {symbol : String} (h : t.isSymbol symbol = true)
    (hsymbol : symbol ∈ ["[", "]", ","]) : IsPlain t := by
  refine ⟨Token.isSymbol_of_ne h ?_, Token.isSymbol_of_ne h ?_, Token.isBoundary_of_isSymbol h ?_⟩
  · rintro rfl
    exact absurd hsymbol (by decide)
  · rintro rfl
    exact absurd hsymbol (by decide)
  · simp only [List.mem_cons, List.not_mem_nil, or_false] at hsymbol
    rcases hsymbol with rfl | rfl | rfl <;> decide

theorem encloses_cons_plain {t : Token} {ts : List Token} {depth : Nat} (ht : IsPlain t)
    (h : Encloses depth ts) : Encloses depth (t :: ts) :=
  (encloses_other ht.1 ht.2.1).mpr ⟨ht.2.2, h⟩

theorem encloses_plain {ts : List Token} (h : ∀ t ∈ ts, IsPlain t) : Encloses 0 ts := by
  induction ts with
  | nil => exact encloses_nil.mpr rfl
  | cons t ts ih =>
    obtain ⟨ht, hts⟩ := List.forall_mem_cons.mp h
    exact encloses_cons_plain ht (ih hts)

theorem encloses_flat {ts : List Token} (h : ∀ t ∈ ts, IsFlat t) : Encloses 0 ts :=
  encloses_plain fun t ht => (h t ht).isPlain

/-- Tokens between parentheses are balanced with them if they are balanced. -/
theorem Encloses.parens {opening closing : Token} {inner rest : List Token}
    (opens : opening.isSymbol "(" = true) (hinner : Encloses 0 inner)
    (closes : closing.isSymbol ")" = true) (hrest : Encloses 0 rest) :
    Encloses 0 (opening :: (inner ++ closing :: rest)) :=
  (encloses_open opens).mpr (hinner.append ((encloses_close closes).mpr hrest))

/-- The bounds of an array: square brackets, each around tokens whose brackets are balanced. -/
inductive ArrayBounds : List Token → Prop
  | nil : ArrayBounds []
  | cons {opening closing : Token} {inner rest : List Token} (opens : opening.isSymbol "[" = true)
      (nests : Nests 1 1 inner) (encloses : Encloses 0 inner)
      (closes : closing.isSymbol "]" = true) (more : ArrayBounds rest) :
      ArrayBounds (opening :: (inner ++ closing :: rest))

theorem ArrayBounds.nests {bounds : List Token} (h : ArrayBounds bounds) : Nests 0 0 bounds := by
  induction h with
  | nil => rfl
  | cons opens nests _ closes _ ih =>
    exact nests_open opens (Or.inr rfl) (nests.append (nests_close closes (Or.inr rfl) ih))

theorem ArrayBounds.encloses {bounds : List Token} (h : ArrayBounds bounds) :
    Encloses 0 bounds := by
  induction h with
  | nil => exact encloses_nil.mpr rfl
  | cons opens _ encloses closes _ ih =>
    refine encloses_cons_plain (isPlain_of_isSymbol opens (by simp)) (encloses.append ?_)
    exact encloses_cons_plain (isPlain_of_isSymbol closes (by simp)) ih

theorem ArrayBounds.exists_concat {bounds : List Token} (h : ArrayBounds bounds)
    (hne : bounds ≠ []) :
    ∃ ts closing, bounds = ts ++ [closing] ∧ closing.isSymbol "]" = true := by
  induction h with
  | nil => exact absurd rfl hne
  | @cons opening closing inner rest _ _ _ closes _ ih =>
    cases rest with
    | nil => exact ⟨opening :: inner, closing, rfl, closes⟩
    | cons t rest =>
      obtain ⟨ts, last, hrest, hlast⟩ := ih (List.cons_ne_nil t rest)
      exact ⟨opening :: (inner ++ closing :: ts), last, by rw [hrest]; simp, hlast⟩

theorem ArrayBounds.exists_cons {bounds : List Token} (h : ArrayBounds bounds)
    (hne : bounds ≠ []) :
    ∃ opening ts, bounds = opening :: ts ∧ opening.isSymbol "[" = true := by
  cases h with
  | nil => exact absurd rfl hne
  | cons opens => exact ⟨_, _, rfl, opens⟩

end HeaderLint
