import HeaderLint.Signature.Extract

/-!
# What a candidate is read as

`Candidate.read?` looks at the statement before a parenthesis and at what follows it.
`Candidate.read?_eq_some_iff` says the same without the functions that walk over these
tokens.

* `HeadFits` looks at each token of the head by its place, and `keptTokens` filters the
  return type out of it (`returnTokens?_eq_some_iff`).
* `Encloses` counts parentheses over every prefix, where `insideParens?` keeps a depth
  (`insideParens?_eq_some_iff`).
-/

namespace HeaderLint

namespace Token

theorem kind_of_isSymbol {t : Token} {symbol : String} (h : t.isSymbol symbol = true) :
    t.kind = .operator ∨ t.kind = .punctuation := by
  simp only [isSymbol, Bool.and_eq_true, Bool.or_eq_true, beq_iff_eq] at h
  exact h.1

theorem text_of_isSymbol {t : Token} {symbol : String} (h : t.isSymbol symbol = true) :
    t.text = symbol := by
  simp only [isSymbol, Bool.and_eq_true, beq_iff_eq] at h
  exact h.2

/-- A token is one symbol at most. -/
theorem isSymbol_of_ne {t : Token} {symbol other : String} (h : t.isSymbol symbol = true)
    (hne : symbol ≠ other) : t.isSymbol other = false := by
  rw [isSymbol, text_of_isSymbol h, beq_false_of_ne hne, Bool.and_false]

theorem isSignificant_of_isSymbol {t : Token} {symbol : String} (h : t.isSymbol symbol = true) :
    t.kind.isSignificant = true := by
  rcases kind_of_isSymbol h with hk | hk <;> rw [hk] <;> rfl

theorem significant_append (ts us : List Token) :
    significant (ts ++ us) = significant ts ++ significant us := List.filter_append ts us

theorem significant_cons {t : Token} (h : t.kind.isSignificant = true) (ts : List Token) :
    significant (t :: ts) = t :: significant ts := List.filter_cons_of_pos h

theorem significant_eq_self {ts : List Token} (h : ∀ t ∈ ts, t.kind.isSignificant = true) :
    significant ts = ts := List.filter_eq_self.mpr h

/-- The token is a brace or a semicolon. -/
def isBoundary (t : Token) : Bool :=
  t.isSymbol "\x7b" || t.isSymbol "\x7d" || t.isSymbol ";"

theorem kind_of_isBoundary {t : Token} (h : t.isBoundary = true) :
    t.kind = .operator ∨ t.kind = .punctuation := by
  rw [isBoundary, Bool.or_eq_true, Bool.or_eq_true] at h
  rcases h with (h | h) | h <;> exact kind_of_isSymbol h

/-- A symbol that is no brace and no semicolon is no boundary. -/
theorem isBoundary_of_isSymbol {t : Token} {symbol : String} (h : t.isSymbol symbol = true)
    (hne : ["\x7b", "\x7d", ";"].contains symbol = false) : t.isBoundary = false := by
  rw [isBoundary]
  simp only [List.contains_cons, Bool.or_eq_false_iff, beq_eq_false_iff_ne] at hne
  rw [isSymbol_of_ne h hne.1, isSymbol_of_ne h hne.2.1, isSymbol_of_ne h hne.2.2.1]
  rfl

end Token

/-! ## Heads -/

/-- Every token of a head may be part of a return type, or is a string directly behind
`extern`.  `previous` is the token before the head. -/
def HeadFits (previous : Option Token) (head : List Token) : Prop :=
  ∀ i t, head[i]? = some t → isTypeToken t = true ∨
    t.kind = .stringLiteral ∧
      (if i = 0 then previous else head[i - 1]?).any (Token.isKeyword · "extern") = true

theorem headFits_nil (previous : Option Token) : HeadFits previous [] := by
  intro i t h
  cases h

theorem headFits_cons {previous : Option Token} {t : Token} {ts : List Token} :
    HeadFits previous (t :: ts) ↔
      (isTypeToken t = true ∨
        t.kind = .stringLiteral ∧ previous.any (Token.isKeyword · "extern") = true) ∧
      HeadFits (some t) ts := by
  constructor
  · intro h
    refine ⟨h 0 t rfl, ?_⟩
    intro i u hu
    have hi := h (i + 1) u hu
    cases i with
    | zero => exact hi
    | succ i => exact hi
  · rintro ⟨ht, hts⟩ i u hu
    cases i with
    | zero =>
      cases hu
      exact ht
    | succ i =>
      have hi := hts i u hu
      cases i with
      | zero => exact hi
      | succ i => exact hi

theorem isTypeToken_of_isStorageWord {t : Token} (h : isStorageWord t = true) :
    isTypeToken t = true := by
  rw [isStorageWord, Bool.and_eq_true] at h
  rw [isTypeToken, h.1, Bool.true_or]

theorem isTypeToken_of_stringLiteral {t : Token} (h : t.kind = .stringLiteral) :
    isTypeToken t = false := by
  simp [isTypeToken, h]

/-- The tokens of a head that make up the return type. -/
def keptTokens (head : List Token) : List Token :=
  head.filter fun t => isTypeToken t && !isStorageWord t

theorem keptTokens_cons (t : Token) (ts : List Token) :
    keptTokens (t :: ts) =
      if isTypeToken t && !isStorageWord t then t :: keptTokens ts else keptTokens ts :=
  List.filter_cons

/-- A head that fits is read as the tokens that are no storage words and no strings. -/
theorem returnTokens?_eq_some_iff {previous : Option Token} {head kept : List Token} :
    returnTokens? previous head = some kept ↔ HeadFits previous head ∧ kept = keptTokens head := by
  induction head generalizing previous kept with
  | nil => simp [returnTokens?, headFits_nil, keptTokens, eq_comm]
  | cons t ts ih =>
    rw [headFits_cons, keptTokens_cons, returnTokens?]
    split
    · next h =>
      rw [ih]
      rw [Bool.or_eq_true, Bool.and_eq_true, beq_iff_eq] at h
      rcases h with h | h
      · rw [isTypeToken_of_stringLiteral h.1]
        simp [h]
      · rw [isTypeToken_of_isStorageWord h, h]
        simp
    · next h =>
      rw [Bool.or_eq_true, Bool.and_eq_true, beq_iff_eq, not_or, Bool.not_eq_true] at h
      rw [h.2]
      split
      · next ht =>
        rw [ht, Option.map_eq_some_iff]
        simp only [ih]
        constructor
        · rintro ⟨kept, ⟨hts, rfl⟩, rfl⟩
          exact ⟨⟨Or.inl trivial, hts⟩, rfl⟩
        · rintro ⟨⟨-, hts⟩, rfl⟩
          exact ⟨keptTokens ts, ⟨hts, rfl⟩, rfl⟩
      · next ht =>
        simp [ht, h.1]

/-- The token is no word, no star, no ampersand and no string. -/
def IsMisfit (t : Token) : Prop := isTypeToken t = false ∧ t.kind ≠ .stringLiteral

theorem isMisfit_of_isSymbol {t : Token} {symbol : String} (h : t.isSymbol symbol = true)
    (hsymbol : symbol ∉ ["*", "&"]) : IsMisfit t := by
  rw [List.mem_cons, List.mem_singleton, not_or] at hsymbol
  have htext := Token.text_of_isSymbol h
  rcases Token.kind_of_isSymbol h with hkind | hkind <;>
    simp [IsMisfit, isTypeToken, hkind, htext, hsymbol]

/-- A misfit has no place in a head. -/
theorem HeadFits.not_isMisfit {previous : Option Token} {head : List Token} {t : Token}
    (h : HeadFits previous head) (ht : t ∈ head) : ¬IsMisfit t := by
  rintro ⟨htype, hstring⟩
  obtain ⟨i, hi⟩ := List.getElem?_of_mem ht
  rcases h i t hi with hfit | hfit
  · rw [htype] at hfit
    cases hfit
  · exact hstring hfit.1

/-! ## Parentheses -/

/-- The parentheses among the tokens never close more than they open and `depth` more. -/
def NeverBelow (depth : Nat) (ts : List Token) : Prop :=
  ∀ us, us <+: ts → us.countP (·.isSymbol ")") ≤ us.countP (·.isSymbol "(") + depth

/-- The tokens close `depth` parentheses more than they open, never more than that on
the way, and have no brace and no semicolon. -/
structure Encloses (depth : Nat) (ts : List Token) : Prop where
  /-- The parentheses never close too many. -/
  neverBelow : NeverBelow depth ts
  /-- They close as many as they have to. -/
  closes : ts.countP (·.isSymbol ")") = ts.countP (·.isSymbol "(") + depth
  /-- No brace and no semicolon stands among them. -/
  plain : ∀ t ∈ ts, t.isBoundary = false

theorem encloses_nil {depth : Nat} : Encloses depth [] ↔ depth = 0 := by
  constructor
  · intro h
    simpa using h.closes.symm
  · rintro rfl
    refine ⟨?_, rfl, by simp⟩
    intro us hus
    rw [List.prefix_nil.mp hus]
    exact Nat.le_refl _

theorem neverBelow_cons {depth : Nat} {t : Token} {ts : List Token} :
    NeverBelow depth (t :: ts) ↔ ∀ us, us <+: ts →
      us.countP (·.isSymbol ")") + (if t.isSymbol ")" then 1 else 0) ≤
        us.countP (·.isSymbol "(") + (if t.isSymbol "(" then 1 else 0) + depth := by
  constructor
  · intro h us hus
    have hcons := h (t :: us) ((List.prefix_cons_inj t).mpr hus)
    rwa [List.countP_cons, List.countP_cons] at hcons
  · intro h us hus
    cases us with
    | nil => exact Nat.zero_le _
    | cons u us =>
      obtain ⟨rfl, hus'⟩ := List.cons_prefix_cons.mp hus
      rw [List.countP_cons, List.countP_cons]
      exact h us hus'

section
variable {depth after : Nat} {t : Token} {ts : List Token}

/-- What a token leaves to close depends on which parenthesis it is. -/
theorem encloses_cons (h : after + (if t.isSymbol ")" then 1 else 0) =
    depth + if t.isSymbol "(" then 1 else 0) :
    Encloses depth (t :: ts) ↔ t.isBoundary = false ∧ Encloses after ts := by
  constructor
  · intro hts
    obtain ⟨hb, hplain⟩ := List.forall_mem_cons.mp hts.plain
    refine ⟨hb, ?_, ?_, hplain⟩
    · intro us hus
      have hbelow := neverBelow_cons.mp hts.neverBelow us hus
      omega
    · have hcloses := hts.closes
      rw [List.countP_cons, List.countP_cons] at hcloses
      omega
  · rintro ⟨hb, hts⟩
    refine ⟨neverBelow_cons.mpr ?_, ?_, List.forall_mem_cons.mpr ⟨hb, hts.plain⟩⟩
    · intro us hus
      have hbelow := hts.neverBelow us hus
      omega
    · have hcloses := hts.closes
      rw [List.countP_cons, List.countP_cons]
      omega

theorem encloses_open (ht : t.isSymbol "(" = true) :
    Encloses depth (t :: ts) ↔ Encloses (depth + 1) ts := by
  have hclose : t.isSymbol ")" = false := Token.isSymbol_of_ne ht (by decide)
  have hb : t.isBoundary = false := Token.isBoundary_of_isSymbol ht (by decide)
  have h : depth + 1 + (if t.isSymbol ")" then 1 else 0) =
      depth + if t.isSymbol "(" then 1 else 0 := by
    simp [ht, hclose]
  rw [encloses_cons h, and_iff_right hb]

theorem not_encloses_close (ht : t.isSymbol ")" = true) : ¬ Encloses 0 (t :: ts) := by
  intro h
  have hopen : t.isSymbol "(" = false := Token.isSymbol_of_ne ht (by decide)
  have hbelow := neverBelow_cons.mp h.neverBelow [] List.nil_prefix
  simp [ht, hopen] at hbelow

theorem encloses_close (ht : t.isSymbol ")" = true) :
    Encloses (depth + 1) (t :: ts) ↔ Encloses depth ts := by
  have hopen : t.isSymbol "(" = false := Token.isSymbol_of_ne ht (by decide)
  have hb : t.isBoundary = false := Token.isBoundary_of_isSymbol ht (by decide)
  have h : depth + (if t.isSymbol ")" then 1 else 0) =
      depth + 1 + if t.isSymbol "(" then 1 else 0 := by
    simp [ht, hopen]
  rw [encloses_cons h, and_iff_right hb]

theorem encloses_other (hopen : t.isSymbol "(" = false) (hclose : t.isSymbol ")" = false) :
    Encloses depth (t :: ts) ↔ t.isBoundary = false ∧ Encloses depth ts :=
  encloses_cons (by rw [hopen, hclose])

end

/-- `inside` are the tokens before a closing parenthesis, and they leave exactly that
one and `depth` others to close. -/
def ClosesAfter (depth : Nat) (ts inside : List Token) : Prop :=
  Encloses depth inside ∧ ∃ close rest, ts = inside ++ close :: rest ∧ close.isSymbol ")" = true

/-- A token that does not close the list itself stands in front of what is inside. -/
theorem closesAfter_cons {depth after : Nat} {t : Token} {ts inside : List Token}
    (henc : ∀ inner, Encloses depth (t :: inner) ↔ Encloses after inner)
    (hdepth : t.isSymbol ")" = true → depth ≠ 0) :
    ClosesAfter depth (t :: ts) inside ↔
      ∃ inner, ClosesAfter after ts inner ∧ t :: inner = inside := by
  constructor
  · rintro ⟨hinside, close, rest, hts, hclose⟩
    cases inside with
    | nil =>
      obtain ⟨rfl, -⟩ := List.cons_eq_cons.mp hts
      exact absurd (encloses_nil.mp hinside) (hdepth hclose)
    | cons u inner =>
      obtain ⟨rfl, hts'⟩ := List.cons_eq_cons.mp hts
      exact ⟨inner, ⟨(henc inner).mp hinside, close, rest, hts', hclose⟩, rfl⟩
  · rintro ⟨inner, ⟨hinner, close, rest, rfl, hclose⟩, rfl⟩
    exact ⟨(henc inner).mpr hinner, close, rest, rfl, hclose⟩

/-- The parenthesis that closes the list has nothing before it. -/
theorem closesAfter_close {t : Token} {ts inside : List Token} (ht : t.isSymbol ")" = true) :
    ClosesAfter 0 (t :: ts) inside ↔ inside = [] := by
  constructor
  · rintro ⟨hinside, close, rest, hts, -⟩
    cases inside with
    | nil => rfl
    | cons u inner =>
      obtain ⟨rfl, -⟩ := List.cons_eq_cons.mp hts
      exact absurd hinside (not_encloses_close ht)
  · rintro rfl
    exact ⟨encloses_nil.mpr rfl, t, ts, rfl, ht⟩

/-- A brace or a semicolon is never inside parentheses. -/
theorem not_closesAfter_boundary {depth : Nat} {t : Token} {ts inside : List Token}
    (ht : t.isSymbol ")" = false) (hb : t.isBoundary = true) :
    ¬ ClosesAfter depth (t :: ts) inside := by
  rintro ⟨hinside, close, rest, hts, hclose⟩
  cases inside with
  | nil =>
    obtain ⟨rfl, -⟩ := List.cons_eq_cons.mp hts
    rw [ht] at hclose
    cases hclose
  | cons u inner =>
    obtain ⟨rfl, -⟩ := List.cons_eq_cons.mp hts
    have := hinside.plain t List.mem_cons_self
    rw [hb] at this
    cases this

theorem insideParens?_eq_some_iff {depth : Nat} {ts inside : List Token} :
    insideParens? depth ts = some inside ↔ ClosesAfter depth ts inside := by
  induction ts generalizing depth inside with
  | nil => simp [insideParens?, ClosesAfter]
  | cons t ts ih =>
    unfold insideParens?
    split
    · next hopen =>
      have hclose : t.isSymbol ")" = false := Token.isSymbol_of_ne hopen (by decide)
      rw [closesAfter_cons (fun _ => encloses_open hopen) (by simp [hclose])]
      simp only [Option.map_eq_some_iff, ih]
    · next hopen =>
      split
      · next hclose =>
        cases depth with
        | zero => rw [closesAfter_close hclose, Option.some_inj, eq_comm]
        | succ depth =>
          rw [closesAfter_cons (fun _ => encloses_close hclose) (fun _ => depth.succ_ne_zero)]
          simp only [Option.map_eq_some_iff, ih]
      · next hclose =>
        rw [Bool.not_eq_true] at hopen hclose
        split
        · next hb => simp [not_closesAfter_boundary hclose hb]
        · next hb =>
          have henc : ∀ inner, Encloses depth (t :: inner) ↔ Encloses depth inner := by
            intro inner
            rw [encloses_other hopen hclose]
            exact and_iff_right (Bool.not_eq_true _ ▸ hb)
          rw [closesAfter_cons henc (by simp [hclose])]
          simp only [Option.map_eq_some_iff, ih]

/-! ## Candidates -/

/-- A name with what stands before it in the statement starts a signature. -/
structure StartsSignature (name : Token) (head : List Token) : Prop where
  /-- The name is an identifier. -/
  isIdentifier : name.kind = .identifier
  /-- The statement does not start with a word such as `typedef` or `return`. -/
  notStatement : head.head?.any isStatementWord = false
  /-- Every token of the head has a place there. -/
  headFits : HeadFits none head
  /-- There is a return type. -/
  typed : keptTokens head ≠ []

/-- The signature with a name, with what stands before it, and with what stands between
its parentheses. -/
def signatureOf (name : Token) (head inside : List Token) (isDefinition : Bool) : Signature where
  name := name.text
  returnType := typeText (keptTokens head)
  parameters := parameters inside
  position := name.position
  isStatic := head.any (Token.isKeyword · "static")
  isDefinition := isDefinition

theorem terminatorKind?_eq_some_iff {t : Token} {isDefinition : Bool} :
    terminatorKind? t = some isDefinition ↔
      (t.isSymbol "\x7b" = true ∨ t.isSymbol ";" = true) ∧ t.isSymbol "\x7b" = isDefinition := by
  rw [terminatorKind?]
  split
  · next h => simp [h]
  · next h =>
    split
    · next h' => simp [h, h']
    · next h' => simp [h, h']

theorem Candidate.read?_eq_some_iff {statement rest : List Token} {c : Candidate} :
    Candidate.read? statement rest = some c ↔
      ∃ name head isDefinition, statement = name :: head.reverse ∧ StartsSignature name head ∧
        ClosesAfter 0 rest c.inside ∧
        rest[c.inside.length + 1]?.bind terminatorKind? = some isDefinition ∧
        c.signature = signatureOf name head c.inside isDefinition := by
  constructor
  · intro h
    cases statement with
    | nil => cases h
    | cons name headRev =>
      rw [read?] at h
      split at h
      · next hname =>
        rw [Bool.and_eq_true, beq_iff_eq, Bool.not_eq_true'] at hname
        split at h
        · next inside t ts hinside hreturn =>
          obtain ⟨hfits, hkept⟩ := returnTokens?_eq_some_iff.mp hreturn
          obtain ⟨isDefinition, hterminator, rfl⟩ := Option.map_eq_some_iff.mp h
          refine ⟨name, headRev.reverse, isDefinition, by rw [List.reverse_reverse],
            ⟨hname.1, hname.2, hfits, by rw [← hkept]; exact List.cons_ne_nil t ts⟩,
            insideParens?_eq_some_iff.mp hinside, ?_, ?_⟩
          · rwa [← List.head?_drop]
          · rw [signatureOf, hkept]
        · cases h
      · cases h
  · rintro ⟨name, head, isDefinition, rfl, hstarts, hcloses, hterminator, hsignature⟩
    obtain ⟨t, ts, hkept⟩ := List.exists_cons_of_ne_nil hstarts.typed
    have hreturn : returnTokens? none head = some (t :: ts) :=
      returnTokens?_eq_some_iff.mpr ⟨hstarts.headFits, hkept.symm⟩
    have hinside := insideParens?_eq_some_iff.mpr hcloses
    rw [← List.head?_drop] at hterminator
    obtain ⟨signature, inside⟩ := c
    dsimp only at hsignature hinside hterminator
    subst hsignature
    simp only [read?, List.reverse_reverse, hstarts.isIdentifier, hstarts.notStatement, hreturn,
      hinside, hterminator, signatureOf, hkept, beq_self_eq_true, Bool.not_false, Bool.and_self,
      if_true, Option.map_some]

/-- With the tokens between the parentheses known, the head and the token behind them decide. -/
theorem Candidate.read?_eq_some_iff_of_closesAfter {name : Token} {head rest inside : List Token}
    (hcloses : ClosesAfter 0 rest inside) {c : Candidate} :
    Candidate.read? (name :: head.reverse) rest = some c ↔
      StartsSignature name head ∧ ∃ isDefinition,
        rest[inside.length + 1]?.bind terminatorKind? = some isDefinition ∧
        c = ⟨signatureOf name head inside isDefinition, inside⟩ := by
  rw [Candidate.read?_eq_some_iff]
  constructor
  · rintro ⟨name', head', isDefinition, hstatement, hstarts, hinside, hkind, hsignature⟩
    obtain ⟨rfl, hhead⟩ := List.cons_eq_cons.mp hstatement
    obtain rfl := List.reverse_inj.mp hhead
    have heq : c.inside = inside := Option.some_inj.mp
      ((insideParens?_eq_some_iff.mpr hinside).symm.trans (insideParens?_eq_some_iff.mpr hcloses))
    obtain ⟨signature, inside'⟩ := c
    dsimp only at heq hsignature
    subst heq hsignature
    exact ⟨hstarts, isDefinition, hkind, rfl⟩
  · rintro ⟨hstarts, isDefinition, hkind, rfl⟩
    exact ⟨name, head, isDefinition, rfl, hstarts, hcloses, hkind, rfl⟩

/-- While a misfit is part of the statement no candidate is a signature. -/
theorem Candidate.read?_of_misfit_mem {statement rest : List Token} {t : Token}
    (hmem : t ∈ statement) (ht : IsMisfit t) : Candidate.read? statement rest = none := by
  rw [Option.eq_none_iff_forall_ne_some]
  intro c hc
  obtain ⟨name, head, _, rfl, hstarts, -⟩ := Candidate.read?_eq_some_iff.mp hc
  rcases List.mem_cons.mp hmem with rfl | hmem
  · have hword : isTypeToken t = true := by
      rw [isTypeToken, hstarts.isIdentifier]
      rfl
    rw [ht.1] at hword
    cases hword
  · exact hstarts.headFits.not_isMisfit (List.mem_reverse.mp hmem) ht

end HeaderLint
