import HeaderLint.Proofs.Signature.Parts

/-!
# Splitting undoes joining

Lists of tokens are joined with a comma between two of them (`Joined`).  If each of them has a
token, closes the brackets that it opens, and has its commas inside brackets, then the parameters of
the joined list are read off exactly these lists (`parameters_joined`).

`ClosesBrackets` says this of the brackets by counting over every front of the list.  Both kinds of
brackets count alike, as they do for the depth that decides where a list is cut.  Token by token it
comes to the same (`closesBrackets_cons`), so such a list stays in one part
(`ClosesBrackets.nests`).

Whatever the tokens are, a list is cut once at each comma outside of brackets (`outerCommas`), and a
bracket that closes more than was opened closes nothing.
-/

namespace HeaderLint

/-! ## Brackets by counting -/

/-- The token opens a bracket. -/
def isOpening (t : Token) : Bool := t.isSymbol "(" || t.isSymbol "["

/-- The token closes a bracket. -/
def isClosing (t : Token) : Bool := t.isSymbol ")" || t.isSymbol "]"

/-- The tokens close `depth` brackets more than they open, never more than that on the way, and
every comma stands where one is open. -/
structure ClosesBrackets (depth : Nat) (ts : List Token) : Prop where
  /-- The brackets never close too many. -/
  neverBelow : ∀ us, us <+: ts → us.countP isClosing ≤ us.countP isOpening + depth
  /-- They close as many as they have to. -/
  closes : ts.countP isClosing = ts.countP isOpening + depth
  /-- A comma stands inside of brackets. -/
  commas : ∀ us comma, us ++ [comma] <+: ts → comma.isSymbol "," = true →
    us.countP isClosing < us.countP isOpening + depth

section
variable {t : Token} {ts : List Token} {depth : Nat}

theorem isOpening_of_isClosing (h : isClosing t = true) : isOpening t = false := by
  rcases Bool.or_eq_true_iff.mp h with h | h <;>
    rw [isOpening, Token.isSymbol_of_ne h (by decide), Token.isSymbol_of_ne h (by decide)] <;> rfl

/-- What a token does to the depth of brackets is what it counts. -/
theorem bracketDepth_add (h : isClosing t = true → depth ≠ 0) :
    bracketDepth depth t + (if isClosing t then 1 else 0) =
      depth + if isOpening t then 1 else 0 := by
  rw [bracketDepth, ← isOpening, ← isClosing]
  cases hclosing : isClosing t with
  | true =>
    rw [isOpening_of_isClosing hclosing]
    have hdepth := h hclosing
    simp only [Bool.false_eq_true, if_false, if_true]
    omega
  | false => cases isOpening t <;> simp

theorem closesBrackets_nil : ClosesBrackets depth [] ↔ depth = 0 := by
  constructor
  · intro h
    simpa using h.closes.symm
  · rintro rfl
    refine ⟨?_, rfl, ?_⟩
    · intro us hus
      rw [List.prefix_nil.mp hus]
      exact Nat.le_refl _
    · intro us comma hus
      exact absurd (List.prefix_nil.mp hus) (List.append_ne_nil_of_right_ne_nil _ (by simp))

theorem closesBrackets_cons :
    ClosesBrackets depth (t :: ts) ↔
      (isClosing t = true → depth ≠ 0) ∧ (t.isSymbol "," = true → depth ≠ 0) ∧
        ClosesBrackets (bracketDepth depth t) ts := by
  constructor
  · intro h
    have hclosing : isClosing t = true → depth ≠ 0 := by
      intro hclosing
      have hbelow := h.neverBelow [t] ⟨ts, rfl⟩
      rw [List.countP_singleton, List.countP_singleton, hclosing, isOpening_of_isClosing hclosing,
        if_pos rfl, if_neg Bool.false_ne_true] at hbelow
      omega
    have hadd := bracketDepth_add hclosing
    refine ⟨hclosing, ?_, ?_, ?_, ?_⟩
    · intro hcomma
      have hinside := h.commas [] t ⟨ts, rfl⟩ hcomma
      simpa [Nat.pos_iff_ne_zero] using hinside
    · intro us hus
      have hbelow := h.neverBelow (t :: us) ((List.prefix_cons_inj t).mpr hus)
      rw [List.countP_cons, List.countP_cons] at hbelow
      omega
    · have hcloses := h.closes
      rw [List.countP_cons, List.countP_cons] at hcloses
      omega
    · intro us comma hus hcomma
      have hinside := h.commas (t :: us) comma ((List.prefix_cons_inj t).mpr hus) hcomma
      rw [List.countP_cons, List.countP_cons] at hinside
      omega
  · rintro ⟨hclosing, hcomma, h⟩
    have hadd := bracketDepth_add hclosing
    refine ⟨?_, ?_, ?_⟩
    · intro us hus
      cases us with
      | nil => exact Nat.zero_le _
      | cons u us =>
        obtain ⟨rfl, hus'⟩ := List.cons_prefix_cons.mp hus
        have hbelow := h.neverBelow us hus'
        rw [List.countP_cons, List.countP_cons]
        omega
    · have hcloses := h.closes
      rw [List.countP_cons, List.countP_cons]
      omega
    · intro us comma hus hsymbol
      cases us with
      | nil =>
        obtain ⟨rfl, -⟩ := List.cons_prefix_cons.mp hus
        have hdepth := hcomma hsymbol
        simp only [List.countP_nil]
        omega
      | cons u us =>
        obtain ⟨rfl, hus'⟩ := List.cons_prefix_cons.mp hus
        have hinside := h.commas us comma hus' hsymbol
        rw [List.countP_cons, List.countP_cons]
        omega

instance instDecidableClosesBrackets :
    (depth : Nat) → (ts : List Token) → Decidable (ClosesBrackets depth ts)
  | _, [] => decidable_of_iff _ closesBrackets_nil.symm
  | depth, t :: ts =>
    have : Decidable (ClosesBrackets (bracketDepth depth t) ts) :=
      instDecidableClosesBrackets _ ts
    decidable_of_iff _ closesBrackets_cons.symm

/-- Such tokens lead back to where no bracket is open, and no comma cuts them. -/
theorem ClosesBrackets.nests (h : ClosesBrackets depth ts) : Nests depth 0 ts := by
  induction ts generalizing depth with
  | nil => exact closesBrackets_nil.mp h
  | cons t ts ih =>
    obtain ⟨-, hcomma, hrest⟩ := closesBrackets_cons.mp h
    exact ⟨hcomma, ih hrest⟩

end

/-! ## Commas outside of brackets -/

/-- The number of commas where no bracket is open, from a depth of brackets on. -/
def outerCommas (depth : Nat) (ts : List Token) : Nat :=
  (List.range ts.length).countP fun i =>
    ts[i]?.any (Token.isSymbol · ",") && (ts.take i).foldl bracketDepth depth == 0

theorem outerCommas_cons (depth : Nat) (t : Token) (ts : List Token) :
    outerCommas depth (t :: ts) =
      outerCommas (bracketDepth depth t) ts + if t.isSymbol "," && depth == 0 then 1 else 0 := by
  rw [outerCommas, List.length_cons, List.range_succ_eq_map, List.countP_cons, List.countP_map]
  rfl

theorem bracketDepth_of_isSymbol_comma {t : Token} (h : t.isSymbol "," = true) (depth : Nat) :
    bracketDepth depth t = depth := by
  have hother : ∀ symbol, "," ≠ symbol → t.isSymbol symbol = false := fun _ hne =>
    Token.isSymbol_of_ne h hne
  rw [bracketDepth, hother "(" (by decide), hother "[" (by decide), hother ")" (by decide),
    hother "]" (by decide)]
  rfl

/-- A list is cut once at each comma outside of brackets. -/
theorem length_splitParts (depth : Nat) (ts : List Token) :
    (splitParts depth ts).2.length = outerCommas depth ts := by
  induction ts generalizing depth with
  | nil => rfl
  | cons t ts ih =>
    rw [outerCommas_cons, splitParts]
    split
    · next hcut =>
      obtain ⟨hcomma, hdepth⟩ := Bool.and_eq_true_iff.mp hcut
      rw [bracketDepth_of_isSymbol_comma hcomma, beq_iff_eq.mp hdepth, List.length_cons, ih]
    · exact ih (bracketDepth depth t)

theorem length_parameterParts_le (ts : List Token) :
    (parameterParts ts).length ≤ outerCommas 0 ts + 1 := by
  have hcut : ((splitParts 0 ts).1 :: (splitParts 0 ts).2).length = outerCommas 0 ts + 1 := by
    rw [List.length_cons, length_splitParts]
  simp only [parameterParts]
  split
  · rw [List.length_dropLast, hcut]
    exact Nat.sub_le _ _
  · exact Nat.le_of_eq hcut

theorem length_parameters_le (ts : List Token) :
    (parameters ts).length ≤ outerCommas 0 ts + 1 := by
  simp only [parameters]
  split
  · exact Nat.zero_le _
  · rw [List.length_map]
    exact Nat.le_trans (List.length_filter_le _ _) (length_parameterParts_le ts)

/-! ## Lists joined with commas -/

/-- The tokens are the lists with a comma between two of them, or there are none. -/
inductive Joined : List (List Token) → List Token → Prop
  | none : Joined [] []
  | some {parts : List (List Token)} {tokens : List Token} (h : Separated parts tokens) :
      Joined parts tokens

theorem Joined.parameters_eq {parts : List (List Token)} {tokens : List Token}
    (h : Joined parts tokens) (hparts : ∀ part ∈ parts, part ≠ [] ∧ ClosesBrackets 0 part) :
    parameters tokens = if isVoidList parts then [] else parts.map parameter := by
  cases h with
  | none => rfl
  | some h =>
    exact h.parameters_eq_of_nests fun part hpart =>
      ⟨(hparts part hpart).1, (hparts part hpart).2.nests⟩

/-- Lists that have a token, close the brackets that they open, and have their commas inside
brackets are read one by one when they are joined with commas, but the word `void` alone stands for
no parameter.  Of any tokens there is at most one parameter more than there are commas outside of
brackets. -/
theorem parameters_joined :
    (∀ parts tokens, Joined parts tokens →
      (∀ part ∈ parts, part ≠ [] ∧ ClosesBrackets 0 part) →
      ((∀ t, parts = [[t]] → t.isKeyword "void" = false) →
        parameters tokens = parts.map parameter) ∧
      ∀ t, parts = [[t]] → t.isKeyword "void" = true → parameters tokens = []) ∧
    ∀ ts, (parameters ts).length ≤ outerCommas 0 ts + 1 := by
  refine ⟨fun parts tokens h hparts => ⟨fun hplain => ?_, fun t hpart hvoid => ?_⟩,
    length_parameters_le⟩
  · have hvoid : isVoidList parts = false := by
      rw [← Bool.not_eq_true]
      intro hvoid
      obtain ⟨t, hpart, hkeyword⟩ := exists_of_isVoidList hvoid
      rw [hplain t hpart] at hkeyword
      cases hkeyword
    rw [h.parameters_eq hparts, hvoid, if_neg Bool.false_ne_true]
  · rw [h.parameters_eq hparts, hpart, isVoidList, if_pos hvoid]

/-- The tokens of `int (*f)(int, int)`. -/
def pointerPart : List Token :=
  [⟨.keyword, "int", ⟨1, 1⟩⟩, ⟨.punctuation, "(", ⟨1, 5⟩⟩, ⟨.operator, "*", ⟨1, 6⟩⟩,
    ⟨.identifier, "f", ⟨1, 7⟩⟩, ⟨.punctuation, ")", ⟨1, 8⟩⟩, ⟨.punctuation, "(", ⟨1, 9⟩⟩,
    ⟨.keyword, "int", ⟨1, 10⟩⟩, ⟨.punctuation, ",", ⟨1, 13⟩⟩, ⟨.keyword, "int", ⟨1, 15⟩⟩,
    ⟨.punctuation, ")", ⟨1, 18⟩⟩]

/-- The tokens of `char s[2]`. -/
def arrayPart : List Token :=
  [⟨.keyword, "char", ⟨1, 21⟩⟩, ⟨.identifier, "s", ⟨1, 26⟩⟩, ⟨.punctuation, "[", ⟨1, 27⟩⟩,
    ⟨.number, "2", ⟨1, 28⟩⟩, ⟨.punctuation, "]", ⟨1, 29⟩⟩]

/-- The word `void`. -/
def voidToken : Token := ⟨.keyword, "void", ⟨1, 1⟩⟩

/-- The comma inside the parentheses cuts nothing, and the word `void` stands for nothing. -/
theorem parameters_joined_pointer :
    (Joined [pointerPart, arrayPart] (pointerPart ++ ⟨.punctuation, ",", ⟨1, 19⟩⟩ :: arrayPart) ∧
      (∀ part ∈ [pointerPart, arrayPart], part ≠ [] ∧ ClosesBrackets 0 part) ∧
      (∀ t, [pointerPart, arrayPart] = [[t]] → t.isKeyword "void" = false) ∧
      parameters (pointerPart ++ ⟨.punctuation, ",", ⟨1, 19⟩⟩ :: arrayPart) =
        [⟨"int (*)(int, int)", some "f"⟩, ⟨"char[2]", some "s"⟩]) ∧
    Joined [[voidToken]] [voidToken] ∧
      (∀ part ∈ [[voidToken]], part ≠ [] ∧ ClosesBrackets 0 part) ∧
      voidToken.isKeyword "void" = true ∧ parameters [voidToken] = [] := by
  have hpair : Joined [pointerPart, arrayPart]
      (pointerPart ++ ⟨.punctuation, ",", ⟨1, 19⟩⟩ :: arrayPart) :=
    .some (.cons _ (by decide) (.one _))
  have hparts : ∀ part ∈ [pointerPart, arrayPart], part ≠ [] ∧ ClosesBrackets 0 part := by decide
  have hplain : ∀ t, [pointerPart, arrayPart] = [[t]] → t.isKeyword "void" = false := fun t h =>
    absurd (congrArg List.length h) (Nat.succ_ne_self 1)
  have hvoid : Joined [[voidToken]] [voidToken] := .some (.one _)
  have hpart : ∀ part ∈ [[voidToken]], part ≠ [] ∧ ClosesBrackets 0 part := by decide
  refine ⟨⟨hpair, hparts, hplain, ?_⟩, hvoid, hpart, by decide,
    (parameters_joined.1 _ _ hvoid hpart).2 voidToken rfl (by decide)⟩
  rw [(parameters_joined.1 _ _ hpair hparts).1 hplain]
  decide

end HeaderLint
