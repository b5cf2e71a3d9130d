import HeaderLint.Token.Scan
import HeaderLint.Proofs.Signature.Complete

/-!
# Declarations of variables

A `VariableDeclaration` is a variable at top level: the words and stars of its type, behind the
body of a structure if there is one, its name, the bounds of an array, an attribute, an
initializer, and a semicolon.

Each of its parentheses is a candidate.  Behind a square bracket or an equals sign none of them is
a signature, since these have no place in a head.  The one that remains is the parenthesis behind
the word `__attribute__` of a variable without bounds.  To the walk that word is an identifier
like any other, with the variable and its type in front of it, so it reads as the name of a
function when the semicolon follows (`VariableDeclaration.attributeSignature?`).

`FunctionRecord.extract_variables` says that nothing else is found in variables, one behind the
other: there is a function just for each attribute that reads as one.
-/

namespace HeaderLint

/-! ## Variables -/

/-- A word or a star of the type of a variable. -/
def isDeclarationWord (t : Token) : Bool := isWord t && !isStatementWord t || isStar t

/-- A structure, an enumeration or a union with its body, perhaps behind other words, or
nothing. -/
inductive Aggregate : List Token → Prop
  | none : Aggregate []
  | body {before body : List Token} {word opening closing : Token} {tag : Option Token}
      (isType : ∀ t ∈ before, isDeclarationWord t = true) (announces : announcesTag word = true)
      (isTag : ∀ t ∈ tag, t.kind = .identifier) (opens : opening.isSymbol "\x7b" = true)
      (balanced : ClosesBraces 0 body) (closes : closing.isSymbol "\x7d" = true) :
      Aggregate (before ++ word :: tag.toList ++ opening :: (body ++ [closing]))

/-- What a variable starts with: an expression, a list between braces, or nothing. -/
inductive Initializer : List Token → Prop
  | none : Initializer []
  | expression {equals : Token} {value : List Token} (assigns : equals.isSymbol "=" = true)
      (balanced : Encloses 0 value) : Initializer (equals :: value)
  | list {equals opening closing : Token} {body : List Token} (assigns : equals.isSymbol "=" = true)
      (opens : opening.isSymbol "\x7b" = true) (balanced : ClosesBraces 0 body)
      (closes : closing.isSymbol "\x7d" = true) :
      Initializer (equals :: opening :: (body ++ [closing]))

/-- An attribute specifier: its word, and arguments between two pairs of parentheses. -/
structure AttributeSpecifier where
  word : Token
  /-- The outer parenthesis before the arguments. -/
  opening : Token
  /-- The inner parenthesis before the arguments. -/
  opening' : Token
  arguments : List Token
  /-- The inner parenthesis behind the arguments. -/
  closing' : Token
  /-- The outer parenthesis behind the arguments. -/
  closing : Token
  isIdentifier : word.kind = .identifier
  isAttribute : word.text = "__attribute__"
  opens : opening.isSymbol "(" = true
  opens' : opening'.isSymbol "(" = true
  balanced : Encloses 0 arguments
  closes' : closing'.isSymbol ")" = true
  closes : closing.isSymbol ")" = true

namespace AttributeSpecifier

/-- The tokens between the outer parentheses. -/
def inside (a : AttributeSpecifier) : List Token := a.opening' :: (a.arguments ++ [a.closing'])

/-- The tokens of the attribute. -/
def tokens (a : AttributeSpecifier) : List Token := a.word :: a.opening :: (a.inside ++ [a.closing])

theorem encloses_inside (a : AttributeSpecifier) : Encloses 0 a.inside :=
  a.balanced.parens a.opens' a.closes' (encloses_nil.mpr rfl)

theorem isBoundary_of_mem (a : AttributeSpecifier) : ∀ t ∈ a.tokens, t.isBoundary = false := by
  refine List.forall_mem_cons.mpr ⟨(isFlat_of_isIdentifier a.isIdentifier).isPlain.2.2, ?_⟩
  exact (Encloses.parens a.opens a.encloses_inside a.closes (encloses_nil.mpr rfl)).plain

end AttributeSpecifier

/-- A declaration of a variable. -/
structure VariableDeclaration where
  /-- A structure, an enumeration or a union before the type. -/
  aggregate : List Token
  /-- The words and the stars of the type. -/
  type : List Token
  name : Token
  /-- The bounds of an array. -/
  bounds : List Token
  specifier : Option AttributeSpecifier
  initializer : List Token
  semicolon : Token
  isAggregate : Aggregate aggregate
  isType : ∀ t ∈ type, isDeclarationWord t = true
  isName : name.kind = .identifier
  isBounds : ArrayBounds bounds
  isInitializer : Initializer initializer
  ends : semicolon.isSymbol ";" = true

namespace VariableDeclaration

variable (d : VariableDeclaration)

/-- The type behind the body of a structure, and the name. -/
def head : List Token := d.type ++ [d.name]

/-- The tokens of the attribute, if there is one. -/
def attributeTokens : List Token := (d.specifier.map AttributeSpecifier.tokens).getD []

/-- The tokens of the declaration. -/
def tokens : List Token :=
  d.aggregate ++ (d.head ++ (d.bounds ++ (d.attributeTokens ++ (d.initializer ++ [d.semicolon]))))

/-- The attribute reads as a function: the variable has no bounds and no initializer, and some
word of it is part of a return type. -/
def ReadsAsFunction (a : AttributeSpecifier) : Prop :=
  d.specifier = some a ∧ d.bounds = [] ∧ d.initializer = [] ∧
    ∃ t ∈ d.head, isStorageWord t = false

/-- The signature that is read from the attribute, if there is one. -/
def attributeSignature? : Option Signature :=
  d.specifier.bind fun a =>
    if d.bounds = [] ∧ d.initializer = [] ∧ ∃ t ∈ d.head, isStorageWord t = false then
      some (signatureOf a.word d.head a.inside false)
    else none

theorem attributeSignature?_eq_some_iff {s : Signature} :
    d.attributeSignature? = some s ↔
      ∃ a, d.ReadsAsFunction a ∧ signatureOf a.word d.head a.inside false = s := by
  rw [attributeSignature?, Option.bind_eq_some_iff]
  refine exists_congr fun a => ?_
  rw [Option.ite_none_right_eq_some, Option.some_inj, ReadsAsFunction]
  simp only [and_assoc]

end VariableDeclaration

/-! ## The walk over the parts -/

theorem isTypeToken_of_isDeclarationWord {t : Token} (h : isDeclarationWord t = true) :
    isTypeToken t = true := by
  rcases Bool.or_eq_true_iff.mp h with h | h
  · exact isTypeToken_of_isWord (Bool.and_eq_true_iff.mp h).1
  · exact isTypeToken_of_isStar h

theorem isStatementWord_of_isDeclarationWord {t : Token} (h : isDeclarationWord t = true) :
    isStatementWord t = false := by
  rcases Bool.or_eq_true_iff.mp h with h | h
  · rw [Bool.and_eq_true, Bool.not_eq_true'] at h
    exact h.2
  · rw [isStatementWord, beq_iff_eq.mp (Bool.and_eq_true_iff.mp h).1]
    rfl

namespace Scope

variable {braces : List Brace} {ss : List Token}

theorem endsWithLinkage_of_kind_ne {t : Token} (h : t.kind ≠ .stringLiteral) :
    endsWithLinkage (t :: ss) = false := by
  cases ss with
  | nil => rfl
  | cons u ss => rw [endsWithLinkage, beq_false_of_ne h, Bool.false_and]

/-- The body of a structure ends the statement. -/
theorem walk_aggregate (htop : isTopLevel braces = true) {aggregate : List Token}
    (h : Aggregate aggregate) (rest : List Token) :
    (⟨braces, []⟩ : Scope).walk (aggregate ++ rest) = (⟨braces, []⟩ : Scope).walk rest := by
  cases h with
  | none => rfl
  | @body before body word opening closing tag isType announces isTag opens balanced closes =>
    have hword := isTypeToken_of_isWord (isWord_of_announcesTag announces)
    have htag : ∀ t ∈ tag.toList, t.kind = .identifier :=
      fun t ht => isTag t (Option.mem_toList.mp ht)
    have hflat : ∀ t ∈ before ++ word :: tag.toList, IsFlat t := by
      refine List.forall_mem_append.mpr ⟨?_, List.forall_mem_cons.mpr ⟨?_, ?_⟩⟩
      · exact fun t ht => isFlat_of_isTypeToken (isTypeToken_of_isDeclarationWord (isType t ht))
      · exact isFlat_of_isTypeToken hword
      · exact fun t ht => isFlat_of_isIdentifier (htag t ht)
    -- The token before the brace is the tag or the word that announces it, and no string.
    have hlinkage : endsWithLinkage ((before ++ word :: tag.toList).reverse ++ []) = false := by
      rw [List.append_nil, List.reverse_append, List.reverse_cons, List.append_assoc]
      cases tag with
      | none =>
        refine endsWithLinkage_of_kind_ne ?_
        rintro hstring
        rw [isTypeToken_of_stringLiteral hstring] at hword
        cases hword
      | some t =>
        refine endsWithLinkage_of_kind_ne ?_
        rw [isTag t rfl]
        decide
    rw [List.append_assoc, walk_flat hflat]
    exact walk_ending (.body opens balanced closes) htop hlinkage rest

/-- An initializer holds no signature, and the semicolon behind it ends the statement. -/
theorem walk_initializer (htop : isTopLevel braces = true) {initializer : List Token}
    (h : Initializer initializer) {semicolon : Token} (ends : semicolon.isSymbol ";" = true)
    (rest : List Token) :
    (⟨braces, ss⟩ : Scope).walk (initializer ++ semicolon :: rest) =
      (⟨braces, []⟩ : Scope).walk rest := by
  have hequals : ∀ {equals : Token} (ts : List Token), equals.isSymbol "=" = true →
      (⟨braces, ss⟩ : Scope).walk (equals :: ts) =
        (⟨braces, equals :: ss⟩ : Scope).walk ts := by
    intro equals ts assigns
    refine walk_of_step (candidate?_of_ne (Token.isSymbol_of_ne assigns (by decide))) ?_
    exact step_plain (Token.isBoundary_of_isSymbol assigns (by decide))
  cases h with
  | none => exact walk_semicolon htop ends ss rest
  | expression assigns balanced =>
    rw [List.cons_append, hequals _ assigns, walk_plain List.mem_cons_self
      (isMisfit_of_isSymbol assigns (by decide)) balanced.plain]
    exact walk_semicolon htop ends _ rest
  | list assigns opens balanced closes =>
    rw [List.cons_append, hequals _ assigns]
    exact (walk_ending (.body opens balanced closes) htop (endsWithLinkage_of_isSymbol assigns)
      (semicolon :: rest)).trans (walk_semicolon htop ends [] rest)

end Scope

/-! ## The walk over a variable -/

namespace VariableDeclaration

variable (d : VariableDeclaration)

theorem isTypeToken_of_mem_head : ∀ t ∈ d.head, isTypeToken t = true := by
  refine List.forall_mem_append.mpr ⟨?_, List.forall_mem_singleton.mpr ?_⟩
  · exact fun t ht => isTypeToken_of_isDeclarationWord (d.isType t ht)
  · rw [isTypeToken, d.isName]
    rfl

theorem isStatementWord_of_mem_head : ∀ t ∈ d.head, isStatementWord t = false := by
  refine List.forall_mem_append.mpr ⟨?_, List.forall_mem_singleton.mpr ?_⟩
  · exact fun t ht => isStatementWord_of_isDeclarationWord (d.isType t ht)
  · rw [isStatementWord, d.isName]
    rfl

/-- An identifier behind a variable has a return type in front of it if some word of the variable
is no storage word. -/
theorem startsSignature_iff {word : Token} (hword : word.kind = .identifier) :
    StartsSignature word d.head ↔ ∃ t ∈ d.head, isStorageWord t = false := by
  have htyped : keptTokens d.head ≠ [] ↔ ∃ t ∈ d.head, isStorageWord t = false := by
    rw [keptTokens, Ne, List.filter_eq_nil_iff]
    push Not
    refine exists_congr fun t => and_congr_right fun ht => ?_
    rw [d.isTypeToken_of_mem_head t ht, Bool.true_and, Bool.not_eq_true']
  rw [← htyped]
  refine ⟨StartsSignature.typed, fun h => ⟨hword, ?_, ?_, h⟩⟩
  · rw [← Bool.not_eq_true, Option.any_eq_true]
    rintro ⟨t, ht, hstatement⟩
    rw [d.isStatementWord_of_mem_head t (List.mem_of_head? ht)] at hstatement
    cases hstatement
  · exact headFits_of_forall_isTypeToken d.isTypeToken_of_mem_head none

/-- The token behind an attribute ends a declaration just when there is no initializer. -/
theorem terminatorKind?_head? (rest : List Token) :
    (d.initializer ++ d.semicolon :: rest).head?.bind terminatorKind? =
      if d.initializer = [] then some false else none := by
  have hequals : ∀ {equals : Token}, equals.isSymbol "=" = true →
      terminatorKind? equals = none := by
    intro equals assigns
    rw [terminatorKind?, Token.isSymbol_of_ne assigns (by decide),
      Token.isSymbol_of_ne assigns (by decide)]
    rfl
  obtain ⟨initializer, hinitializer⟩ : ∃ ts, d.initializer = ts := ⟨_, rfl⟩
  have isInitializer := d.isInitializer
  rw [hinitializer] at isInitializer ⊢
  cases isInitializer with
  | none =>
    rw [if_pos rfl]
    exact terminatorKind?_eq_some_iff.mpr
      ⟨Or.inr d.ends, Token.isSymbol_of_ne d.ends (by decide)⟩
  | expression assigns _ =>
    rw [if_neg (List.cons_ne_nil _ _)]
    exact hequals assigns
  | list assigns _ _ _ =>
    rw [if_neg (List.cons_ne_nil _ _)]
    exact hequals assigns

/-- What is read at the parenthesis of an attribute. -/
theorem read?_attribute_eq_some_iff (a : AttributeSpecifier) (rest : List Token) {c : Candidate} :
    Candidate.read? (a.word :: d.head.reverse)
        (a.inside ++ a.closing :: (d.initializer ++ d.semicolon :: rest)) = some c ↔
      (d.initializer = [] ∧ ∃ t ∈ d.head, isStorageWord t = false) ∧
        c = ⟨signatureOf a.word d.head a.inside false, a.inside⟩ := by
  have hcloses : ClosesAfter 0 (a.inside ++ a.closing :: (d.initializer ++ d.semicolon :: rest))
      a.inside := ⟨a.encloses_inside, _, _, rfl, a.closes⟩
  have hterminator : (a.inside ++ a.closing :: (d.initializer ++ d.semicolon :: rest))[
      a.inside.length + 1]?.bind terminatorKind? =
        if d.initializer = [] then some false else none := by
    rw [← d.terminatorKind?_head? rest, List.getElem?_append_right (Nat.le_add_right _ 1),
      Nat.add_sub_cancel_left, List.getElem?_cons_succ, List.head?_eq_getElem?]
  rw [Candidate.read?_eq_some_iff_of_closesAfter hcloses, ← d.startsSignature_iff a.isIdentifier,
    hterminator]
  constructor
  · rintro ⟨hstarts, isDefinition, hkind, rfl⟩
    obtain ⟨hnone, hfalse⟩ := Option.ite_none_right_eq_some.mp hkind
    obtain rfl := Option.some_inj.mp hfalse
    exact ⟨⟨hnone, hstarts⟩, rfl⟩
  · rintro ⟨⟨hnone, hstarts⟩, rfl⟩
    exact ⟨hstarts, false, if_pos hnone, rfl⟩

/-- The signature at the parenthesis of an attribute is the only one up to the semicolon. -/
theorem walk_attribute {braces : List Brace} (htop : isTopLevel braces = true)
    (a : AttributeSpecifier) (rest : List Token) :
    (⟨braces, d.head.reverse⟩ : Scope).walk
        (a.tokens ++ (d.initializer ++ d.semicolon :: rest)) =
      (if d.initializer = [] ∧ ∃ t ∈ d.head, isStorageWord t = false then
        [signatureOf a.word d.head a.inside false] else []) ++
          (⟨braces, []⟩ : Scope).walk rest := by
  have hword : (⟨braces, d.head.reverse⟩ : Scope).walk
      (a.tokens ++ (d.initializer ++ d.semicolon :: rest)) =
        (⟨braces, a.word :: d.head.reverse⟩ : Scope).walk
          (a.opening :: (a.inside ++ a.closing :: (d.initializer ++ d.semicolon :: rest))) := by
    have hflat : ∀ t ∈ [a.word], IsFlat t :=
      List.forall_mem_singleton.mpr (isFlat_of_isIdentifier a.isIdentifier)
    rw [show a.tokens ++ (d.initializer ++ d.semicolon :: rest) = [a.word] ++ a.opening ::
      (a.inside ++ a.closing :: (d.initializer ++ d.semicolon :: rest)) by
        simp [AttributeSpecifier.tokens]]
    exact Scope.walk_flat hflat _
  have hcandidate : ∀ {ts : List Token}, (⟨braces, a.word :: d.head.reverse⟩ : Scope).candidate?
      a.opening ts = Candidate.read? (a.word :: d.head.reverse) ts := by
    intro ts
    rw [Scope.candidate?, a.opens, htop]
    rfl
  rw [hword]
  split
  · next hreads =>
    have hread := (d.read?_attribute_eq_some_iff a rest).mpr ⟨hreads, rfl⟩
    have hdrop : (a.inside ++ a.closing :: (d.initializer ++ d.semicolon :: rest)).drop
        (a.inside.length + 1) = d.initializer ++ d.semicolon :: rest := by simp
    rw [Scope.walk_candidate (hcandidate.trans hread), hdrop]
    exact congrArg _ (Scope.walk_initializer htop d.isInitializer d.ends rest)
  · next hreads =>
    have hread : Candidate.read? (a.word :: d.head.reverse)
        (a.inside ++ a.closing :: (d.initializer ++ d.semicolon :: rest)) = none := by
      rw [Option.eq_none_iff_forall_ne_some]
      exact fun c hc => hreads ((d.read?_attribute_eq_some_iff a rest).mp hc).1
    rw [Scope.walk_of_step (hcandidate.trans hread)
      (Scope.step_plain (Token.isBoundary_of_isSymbol a.opens (by decide))),
      Scope.walk_parens _ List.mem_cons_self a.opens a.encloses_inside.plain a.closes]
    exact Scope.walk_initializer htop d.isInitializer d.ends rest

/-- Behind the bounds of an array nothing is a signature. -/
theorem walk_bounds {braces : List Brace} (htop : isTopLevel braces = true) (hne : d.bounds ≠ [])
    (statement rest : List Token) :
    (⟨braces, statement⟩ : Scope).walk
        (d.bounds ++ (d.attributeTokens ++ (d.initializer ++ d.semicolon :: rest))) =
      (⟨braces, []⟩ : Scope).walk rest := by
  have hplain : ∀ t ∈ d.bounds ++ d.attributeTokens, t.isBoundary = false := by
    refine List.forall_mem_append.mpr ⟨d.isBounds.encloses.plain, ?_⟩
    intro t ht
    rw [attributeTokens] at ht
    cases hspecifier : d.specifier with
    | none =>
      rw [hspecifier] at ht
      cases ht
    | some a =>
      rw [hspecifier] at ht
      exact a.isBoundary_of_mem t ht
  obtain ⟨opening, ts, hbounds, opens⟩ := d.isBounds.exists_cons hne
  rw [hbounds, List.cons_append] at hplain
  rw [← List.append_assoc, hbounds, List.cons_append, List.cons_append, Scope.walk_of_step
    (Scope.candidate?_of_ne (Token.isSymbol_of_ne opens (by decide)))
    (Scope.step_plain (Token.isBoundary_of_isSymbol opens (by decide))),
    Scope.walk_plain List.mem_cons_self (isMisfit_of_isSymbol opens (by decide))
      (List.forall_mem_cons.mp hplain).2]
  exact Scope.walk_initializer htop d.isInitializer d.ends rest

/-- From the start of a statement the walk comes to the start of the next one.  What it finds is
what is read from the attribute. -/
theorem walk_tokens {braces : List Brace} (htop : isTopLevel braces = true) (rest : List Token) :
    (⟨braces, []⟩ : Scope).walk (d.tokens ++ rest) =
      d.attributeSignature?.toList ++ (⟨braces, []⟩ : Scope).walk rest := by
  have hhead : ∀ t ∈ d.head, IsFlat t :=
    fun t ht => isFlat_of_isTypeToken (d.isTypeToken_of_mem_head t ht)
  have htokens : d.tokens ++ rest = d.aggregate ++ (d.head ++
      (d.bounds ++ (d.attributeTokens ++ (d.initializer ++ d.semicolon :: rest)))) := by
    simp [tokens]
  rw [htokens, Scope.walk_aggregate htop d.isAggregate, Scope.walk_flat hhead, List.append_nil]
  by_cases hbounds : d.bounds = []
  · rw [attributeSignature?, attributeTokens]
    cases d.specifier with
    | none =>
      rw [hbounds]
      exact Scope.walk_initializer htop d.isInitializer d.ends rest
    | some a =>
      rw [hbounds]
      refine (d.walk_attribute htop a rest).trans ?_
      simp only [Option.bind_some, true_and]
      split <;> rfl
  · have hnone : d.attributeSignature? = none := by
      rw [Option.eq_none_iff_forall_ne_some]
      intro s hs
      obtain ⟨a, hreads, -⟩ := d.attributeSignature?_eq_some_iff.mp hs
      exact hbounds hreads.2.1
    rw [d.walk_bounds htop hbounds, hnone]
    rfl

/-! ## Variables in a row -/

theorem walk_flatMap_tokens (ds : List VariableDeclaration) :
    Scope.start.walk (ds.flatMap tokens) = ds.filterMap attributeSignature? := by
  rw [List.filterMap_eq_flatMap_toList]
  exact Scope.walk_flatMap (fun d rest => d.walk_tokens rfl rest) ds

end VariableDeclaration

/-- Of variables in a row, whatever comments stand between their tokens, what is extracted is what
is read from their attributes.  So nothing is extracted just when no attribute reads as a
function. -/
theorem FunctionRecord.extract_variables (ds : List VariableDeclaration) (tokens : List Token)
    (h : Token.significant tokens = ds.flatMap VariableDeclaration.tokens) :
    extract tokens =
        (ds.filterMap VariableDeclaration.attributeSignature?).map
          (Signature.withDocumentation · tokens) ∧
      (extract tokens = [] ↔ ∀ d ∈ ds, ∀ a, ¬d.ReadsAsFunction a) := by
  have hextract : extract tokens = (ds.filterMap VariableDeclaration.attributeSignature?).map
      (Signature.withDocumentation · tokens) := by
    rw [extract, Signature.extract, extractFrom_eq_walk, h]
    exact congrArg _ (VariableDeclaration.walk_flatMap_tokens ds)
  refine ⟨hextract, ?_⟩
  rw [hextract, List.map_eq_nil_iff, List.filterMap_eq_nil_iff]
  refine forall₂_congr fun d _ => ?_
  rw [Option.eq_none_iff_forall_ne_some]
  constructor
  · intro hnone a hreads
    exact hnone _ (d.attributeSignature?_eq_some_iff.mpr ⟨a, hreads, rfl⟩)
  · intro hnone s hs
    obtain ⟨a, hreads, -⟩ := d.attributeSignature?_eq_some_iff.mp hs
    exact hnone a hreads

/-- The tokens of `struct s { int n; } y[f(2)] __attribute__((aligned(8))) = { g(1) };`. -/
def VariableDeclaration.array : VariableDeclaration where
  aggregate := [⟨.keyword, "struct", ⟨1, 1⟩⟩, ⟨.identifier, "s", ⟨1, 8⟩⟩,
    ⟨.punctuation, "\x7b", ⟨1, 10⟩⟩, ⟨.keyword, "int", ⟨1, 12⟩⟩, ⟨.identifier, "n", ⟨1, 16⟩⟩,
    ⟨.punctuation, ";", ⟨1, 17⟩⟩, ⟨.punctuation, "\x7d", ⟨1, 19⟩⟩]
  type := []
  name := ⟨.identifier, "y", ⟨1, 21⟩⟩
  bounds := [⟨.punctuation, "[", ⟨1, 22⟩⟩, ⟨.identifier, "f", ⟨1, 23⟩⟩,
    ⟨.punctuation, "(", ⟨1, 24⟩⟩, ⟨.number, "2", ⟨1, 25⟩⟩, ⟨.punctuation, ")", ⟨1, 26⟩⟩,
    ⟨.punctuation, "]", ⟨1, 27⟩⟩]
  specifier := some {
    word := ⟨.identifier, "__attribute__", ⟨1, 29⟩⟩
    opening := ⟨.punctuation, "(", ⟨1, 42⟩⟩
    opening' := ⟨.punctuation, "(", ⟨1, 43⟩⟩
    arguments := [⟨.identifier, "aligned", ⟨1, 44⟩⟩, ⟨.punctuation, "(", ⟨1, 51⟩⟩,
      ⟨.number, "8", ⟨1, 52⟩⟩, ⟨.punctuation, ")", ⟨1, 53⟩⟩]
    closing' := ⟨.punctuation, ")", ⟨1, 54⟩⟩
    closing := ⟨.punctuation, ")", ⟨1, 55⟩⟩
    isIdentifier := rfl
    isAttribute := rfl
    opens := by decide
    opens' := by decide
    balanced := by
      have hnumber : Encloses 0 [⟨.number, "8", ⟨1, 52⟩⟩] :=
        encloses_flat (List.forall_mem_singleton.mpr (isFlat_of_kind rfl (by decide)))
      exact encloses_cons_plain (isFlat_of_isIdentifier rfl).isPlain
        (hnumber.parens (by decide) (by decide) (encloses_nil.mpr rfl))
    closes' := by decide
    closes := by decide }
  initializer := [⟨.operator, "=", ⟨1, 57⟩⟩, ⟨.punctuation, "\x7b", ⟨1, 59⟩⟩,
    ⟨.identifier, "g", ⟨1, 61⟩⟩, ⟨.punctuation, "(", ⟨1, 62⟩⟩, ⟨.number, "1", ⟨1, 63⟩⟩,
    ⟨.punctuation, ")", ⟨1, 64⟩⟩, ⟨.punctuation, "\x7d", ⟨1, 66⟩⟩]
  semicolon := ⟨.punctuation, ";", ⟨1, 67⟩⟩
  isAggregate := by
    have hbody : ClosesBraces 0 [⟨.keyword, "int", ⟨1, 12⟩⟩, ⟨.identifier, "n", ⟨1, 16⟩⟩,
        ⟨.punctuation, ";", ⟨1, 17⟩⟩] := by decide
    exact @Aggregate.body [] _ _ _ _ (some _) (by simp) (by decide) (by simp) (by decide) hbody
      (by decide)
  isType := by simp
  isName := rfl
  isBounds := by
    have hnumber : Encloses 0 [⟨.number, "2", ⟨1, 25⟩⟩] :=
      encloses_flat (List.forall_mem_singleton.mpr (isFlat_of_kind rfl (by decide)))
    refine @ArrayBounds.cons _ _ [_, _, _, _] _ (by decide) (by decide) ?_ (by decide) .nil
    exact encloses_cons_plain (isFlat_of_isIdentifier rfl).isPlain
      (hnumber.parens (by decide) (by decide) (encloses_nil.mpr rfl))
  isInitializer := by
    have hbody : ClosesBraces 0 [⟨.identifier, "g", ⟨1, 61⟩⟩, ⟨.punctuation, "(", ⟨1, 62⟩⟩,
        ⟨.number, "1", ⟨1, 63⟩⟩, ⟨.punctuation, ")", ⟨1, 64⟩⟩] := by decide
    exact .list (by decide) (by decide) hbody (by decide)
  ends := by decide

/-- The tokens of `int x __attribute__((unused));` on the second line. -/
def VariableDeclaration.unused : VariableDeclaration where
  aggregate := []
  type := [⟨.keyword, "int", ⟨2, 1⟩⟩]
  name := ⟨.identifier, "x", ⟨2, 5⟩⟩
  bounds := []
  specifier := some {
    word := ⟨.identifier, "__attribute__", ⟨2, 7⟩⟩
    opening := ⟨.punctuation, "(", ⟨2, 20⟩⟩
    opening' := ⟨.punctuation, "(", ⟨2, 21⟩⟩
    arguments := [⟨.identifier, "unused", ⟨2, 22⟩⟩]
    closing' := ⟨.punctuation, ")", ⟨2, 28⟩⟩
    closing := ⟨.punctuation, ")", ⟨2, 29⟩⟩
    isIdentifier := rfl
    isAttribute := rfl
    opens := by decide
    opens' := by decide
    balanced := encloses_flat (List.forall_mem_singleton.mpr (isFlat_of_isIdentifier rfl))
    closes' := by decide
    closes := by decide }
  initializer := []
  semicolon := ⟨.punctuation, ";", ⟨2, 30⟩⟩
  isAggregate := .none
  isType := by decide
  isName := rfl
  isBounds := .nil
  isInitializer := .none
  ends := by decide

/-- Calls in bounds and initializers are no functions. -/
theorem FunctionRecord.extract_variables_array :
    let tokens := Token.scan
      "struct s \x7b int n; \x7d y[f(2)] __attribute__((aligned(8))) = \x7b g(1) \x7d;\n"
    Token.significant tokens = [VariableDeclaration.array].flatMap VariableDeclaration.tokens ∧
      extract tokens =
        ([VariableDeclaration.array].filterMap VariableDeclaration.attributeSignature?).map
          (Signature.withDocumentation · tokens) ∧
      (extract tokens = [] ↔ ∀ d ∈ [VariableDeclaration.array], ∀ a, ¬d.ReadsAsFunction a) := by
  intro tokens
  have htokens : Token.significant tokens =
      [VariableDeclaration.array].flatMap VariableDeclaration.tokens := by
    decide +kernel
  exact ⟨htokens, extract_variables [.array] tokens htokens⟩

/-- A variable that is marked as unused reads as a function. -/
theorem FunctionRecord.extract_variables_unused :
    ¬∀ (ds : List VariableDeclaration) (tokens : List Token),
      Token.significant tokens = ds.flatMap VariableDeclaration.tokens → extract tokens = [] := by
  intro hnone
  have htokens : Token.significant (Token.scan "\nint x __attribute__((unused));\n") =
      [VariableDeclaration.unused].flatMap VariableDeclaration.tokens := by
    decide +kernel
  have hsome : extract (Token.scan "\nint x __attribute__((unused));\n") ≠ [] := by
    decide +kernel
  exact hsome (hnone [.unused] _ htokens)

end HeaderLint
