import HeaderLint.Proofs.Signature.Reading

/-!
# The walk without jumps

Behind a signature `extractFrom` jumps to the token that ends it.  `Scope.walk` goes
on token by token, so its state after some tokens is a fold over them.
`extractFrom_eq_walk` says that both find the same signatures.  Two facts carry this.

* While a token that has no place in a head is part of the statement, such as a
  parenthesis, no candidate is a signature (`Candidate.read?_of_misfit_mem`).  So the walk
  finds nothing between the parentheses of a signature (`Scope.walk_parens`).
* Inside a block the statement does not matter (`Scope.Agrees`), and the token that ends
  a signature starts a new statement or opens a block (`Scope.walk_terminator`).

A signature stands where its name stands among the tokens
(`Signature.exists_name_of_mem_extract`).
-/

namespace HeaderLint

/-! ## Scopes -/

/-- What the walk keeps: the open braces, and the statement so far, latest token
first. -/
structure Scope where
  /-- The open braces, innermost first. -/
  braces : List Brace
  /-- The statement so far, latest token first. -/
  statement : List Token

namespace Scope

/-- Nothing is open and no statement has started. -/
def start : Scope := ⟨[], []⟩

/-- The scope with a token at the end of the statement. -/
def extend (s : Scope) (t : Token) : Scope := { s with statement := t :: s.statement }

/-- The scope after a token. -/
def step (s : Scope) (t : Token) : Scope :=
  if t.isSymbol "\x7b" then
    if isTopLevel s.braces && endsWithLinkage s.statement then ⟨.linkage :: s.braces, []⟩
    else ⟨.block :: s.braces, t :: s.statement⟩
  else if t.isSymbol "\x7d" then
    if isTopLevel s.braces.tail then ⟨s.braces.tail, []⟩ else ⟨s.braces.tail, t :: s.statement⟩
  else if t.isSymbol ";" && isTopLevel s.braces then ⟨s.braces, []⟩
  else s.extend t

/-- The signature that starts at a parenthesis, with the tokens that follow it. -/
def candidate? (s : Scope) (t : Token) (rest : List Token) : Option Candidate :=
  if t.isSymbol "(" && isTopLevel s.braces then Candidate.read? s.statement rest else none

/-- The signatures in the rest of the tokens, found token by token. -/
def walk (s : Scope) : List Token → List Signature
  | [] => []
  | t :: ts => ((s.candidate? t ts).map Candidate.signature).toList ++ walk (s.step t) ts

theorem step_plain {s : Scope} {t : Token} (h : t.isBoundary = false) : s.step t = s.extend t := by
  simp only [Token.isBoundary, Bool.or_eq_false_iff] at h
  simp [step, h]

theorem candidate?_of_ne {s : Scope} {t : Token} {rest : List Token}
    (h : t.isSymbol "(" = false) : s.candidate? t rest = none := by
  rw [candidate?, h]
  rfl

theorem candidate?_of_block {s : Scope} {t : Token} {rest : List Token}
    (h : isTopLevel s.braces = false) : s.candidate? t rest = none := by
  rw [candidate?, h, Bool.and_false]
  rfl

theorem candidate?_of_misfit_mem {s : Scope} {t u : Token} {rest : List Token}
    (hmem : u ∈ s.statement) (hu : IsMisfit u) : s.candidate? t rest = none := by
  rw [candidate?, Candidate.read?_of_misfit_mem hmem hu]
  exact ite_self none

/-! ## Skipping and forgetting -/

/-- While a misfit is part of the statement, tokens that are no braces and no semicolons
only extend it. -/
theorem walk_plain {s : Scope} {u : Token} {ts rest : List Token} (hmem : u ∈ s.statement)
    (hu : IsMisfit u) (hplain : ∀ t ∈ ts, t.isBoundary = false) :
    s.walk (ts ++ rest) = (⟨s.braces, ts.reverse ++ s.statement⟩ : Scope).walk rest := by
  induction ts generalizing s with
  | nil => rfl
  | cons t ts ih =>
    obtain ⟨ht, hts⟩ := List.forall_mem_cons.mp hplain
    rw [List.cons_append, walk, candidate?_of_misfit_mem hmem hu, step_plain ht,
      ih (s := s.extend t) (List.mem_cons_of_mem t hmem) hts, List.reverse_cons,
      List.append_assoc]
    rfl

theorem isTopLevel_block (braces : List Brace) : isTopLevel (.block :: braces) = false := by
  simp [isTopLevel]

/-- Two scopes with the same open braces, and the same statement outside of blocks. -/
structure Agrees (s s' : Scope) : Prop where
  /-- The open braces are the same. -/
  braces_eq : s.braces = s'.braces
  /-- Outside of blocks the statement is the same. -/
  statement_eq : isTopLevel s.braces = true → s.statement = s'.statement

theorem Agrees.of_block {s s' : Scope} (hbraces : s.braces = s'.braces)
    (hblock : isTopLevel s.braces = false) : Agrees s s' := by
  refine ⟨hbraces, ?_⟩
  intro htop
  rw [hblock] at htop
  cases htop

theorem Agrees.eq {s s' : Scope} (h : Agrees s s') (htop : isTopLevel s.braces = true) :
    s = s' := by
  obtain ⟨braces, statement⟩ := s
  cases h.braces_eq
  cases h.statement_eq htop
  rfl

theorem Agrees.step {s s' : Scope} (h : Agrees s s') (t : Token) :
    Agrees (s.step t) (s'.step t) := by
  cases htop : isTopLevel s.braces with
  | true =>
    rw [h.eq htop]
    exact ⟨rfl, fun _ => rfl⟩
  | false =>
    have htop' : isTopLevel s'.braces = false := h.braces_eq ▸ htop
    simp only [Scope.step, extend, htop', h.braces_eq, Bool.false_and, Bool.and_false,
      Bool.false_eq_true, if_false]
    split
    · exact of_block rfl (isTopLevel_block s'.braces)
    · split
      · split
        · exact ⟨rfl, fun _ => rfl⟩
        · next hblock => exact of_block rfl (Bool.not_eq_true _ ▸ hblock)
      · exact of_block rfl htop'

theorem Agrees.candidate?_eq {s s' : Scope} (h : Agrees s s') (t : Token) (rest : List Token) :
    s.candidate? t rest = s'.candidate? t rest := by
  cases htop : isTopLevel s.braces with
  | true => rw [h.eq htop]
  | false => rw [candidate?_of_block htop, candidate?_of_block (h.braces_eq ▸ htop)]

/-- Scopes that agree find the same signatures. -/
theorem Agrees.walk_eq {s s' : Scope} (h : Agrees s s') (ts : List Token) :
    s.walk ts = s'.walk ts := by
  induction ts generalizing s s' with
  | nil => rfl
  | cons t ts ih => rw [walk, walk, h.candidate?_eq, ih (h.step t)]

/-- A token that ends a signature makes up for what the statement has gained since its
opening parenthesis. -/
theorem agrees_step_terminator {braces : List Brace} {ss ss' : List Token} {t : Token}
    (ht : t.isSymbol "\x7b" = true ∨ t.isSymbol ";" = true) (htop : isTopLevel braces = true)
    (hss : endsWithLinkage ss = false) (hss' : endsWithLinkage ss' = false) :
    Agrees ((⟨braces, ss⟩ : Scope).step t) ((⟨braces, ss'⟩ : Scope).step t) := by
  rcases ht with hopen | hsemi
  · simp only [Scope.step, hopen, hss, hss', Bool.and_false, if_true, Bool.false_eq_true, if_false]
    exact Agrees.of_block rfl (isTopLevel_block braces)
  · have hopen : t.isSymbol "\x7b" = false := Token.isSymbol_of_ne hsemi (by decide)
    have hclose : t.isSymbol "\x7d" = false := Token.isSymbol_of_ne hsemi (by decide)
    simp only [Scope.step, hopen, hclose, hsemi, htop, Bool.and_true, if_true, Bool.false_eq_true,
      if_false]
    exact ⟨rfl, fun _ => rfl⟩

theorem endsWithLinkage_of_isSymbol {t : Token} {ss : List Token} {symbol : String}
    (h : t.isSymbol symbol = true) : endsWithLinkage (t :: ss) = false := by
  have hkind : (t.kind == .stringLiteral) = false := by
    rcases Token.kind_of_isSymbol h with hk | hk <;> rw [hk] <;> rfl
  cases ss with
  | nil => rfl
  | cons u ss => rw [endsWithLinkage, hkind, Bool.false_and]

theorem walk_of_step {s s' : Scope} {t : Token} {ts : List Token}
    (hcandidate : s.candidate? t ts = none) (hstep : s.step t = s') :
    s.walk (t :: ts) = s'.walk ts := by
  rw [walk, hcandidate, hstep]
  rfl

/-- Two statements that end with no linkage are the same to a token that ends a
signature. -/
theorem walk_terminator {braces : List Brace} {ss ss' : List Token} {t : Token}
    (ts : List Token) (ht : t.isSymbol "\x7b" = true ∨ t.isSymbol ";" = true)
    (htop : isTopLevel braces = true)
    (hss : endsWithLinkage ss = false) (hss' : endsWithLinkage ss' = false) :
    (⟨braces, ss⟩ : Scope).walk (t :: ts) = (⟨braces, ss'⟩ : Scope).walk (t :: ts) := by
  have hparen : t.isSymbol "(" = false := by
    rcases ht with h | h <;> exact Token.isSymbol_of_ne h (by decide)
  rw [walk_of_step (candidate?_of_ne hparen) rfl, walk_of_step (candidate?_of_ne hparen) rfl]
  exact (agrees_step_terminator ht htop hss hss').walk_eq ts

/-- The walk finds nothing between the parentheses of a list. -/
theorem walk_parens {s : Scope} {u close : Token} {inside : List Token} (rest : List Token)
    (hmem : u ∈ s.statement) (hu : u.isSymbol "(" = true)
    (hplain : ∀ t ∈ inside, t.isBoundary = false) (hclose : close.isSymbol ")" = true) :
    s.walk (inside ++ close :: rest) =
      (⟨s.braces, close :: (inside.reverse ++ s.statement)⟩ : Scope).walk rest := by
  rw [walk_plain hmem (isMisfit_of_isSymbol hu (by decide)) hplain]
  apply walk_of_step
  · exact candidate?_of_ne (Token.isSymbol_of_ne hclose (by decide))
  · exact step_plain (Token.isBoundary_of_isSymbol hclose (by decide))

/-- Behind a signature the walk may go on at the token that ends it. -/
theorem walk_candidate {s : Scope} {t : Token} {ts : List Token} {c : Candidate}
    (h : s.candidate? t ts = some c) :
    s.walk (t :: ts) = c.signature :: (s.extend t).walk (ts.drop (c.inside.length + 1)) := by
  have hcandidate := h
  rw [candidate?] at h
  split at h
  · next hparen =>
    obtain ⟨ht, htop⟩ := Bool.and_eq_true_iff.mp hparen
    obtain ⟨_, _, isDefinition, -, -, ⟨henc, close, rest, rfl, hclose⟩, hterminator, -⟩ :=
      Candidate.read?_eq_some_iff.mp h
    have hdrop : (c.inside ++ close :: rest).drop (c.inside.length + 1) = rest := by simp
    rw [walk, hcandidate, step_plain (Token.isBoundary_of_isSymbol ht (by decide)), hdrop,
      walk_parens (s := s.extend t) rest List.mem_cons_self ht henc.plain hclose]
    rw [← List.head?_drop, hdrop] at hterminator
    -- What is left is the token that ends the signature, and what follows it.
    cases rest with
    | nil => cases hterminator
    | cons next rest =>
      have hnext := terminatorKind?_eq_some_iff.mp hterminator
      exact congrArg (c.signature :: ·) (walk_terminator rest hnext.1 htop
        (endsWithLinkage_of_isSymbol hclose) (endsWithLinkage_of_isSymbol ht))
  · cases h

end Scope

/-- The walk with jumps finds what the walk without finds. -/
theorem extractFrom_eq_walk (braces : List Brace) (statement ts : List Token) :
    extractFrom braces statement ts = (⟨braces, statement⟩ : Scope).walk ts := by
  fun_induction extractFrom braces statement ts with
  | case1 => rfl
  | case2 braces statement t ts hopen hlinkage ih =>
    rw [ih, Scope.walk_of_step (Scope.candidate?_of_ne (Token.isSymbol_of_ne hopen (by decide)))]
    simp [Scope.step, hopen, hlinkage]
  | case3 braces statement t ts hopen hlinkage ih =>
    rw [ih, Scope.walk_of_step (Scope.candidate?_of_ne (Token.isSymbol_of_ne hopen (by decide)))]
    simp [Scope.step, hopen, hlinkage]
  | case4 braces statement t ts hopen hclose htop ih =>
    rw [ih, Scope.walk_of_step (Scope.candidate?_of_ne (Token.isSymbol_of_ne hclose (by decide)))]
    simp [Scope.step, hopen, hclose, htop]
  | case5 braces statement t ts hopen hclose htop ih =>
    rw [ih, Scope.walk_of_step (Scope.candidate?_of_ne (Token.isSymbol_of_ne hclose (by decide)))]
    simp [Scope.step, hopen, hclose, htop]
  | case6 braces statement t ts hopen hclose hsemi ih =>
    obtain ⟨hsemi, htop⟩ := Bool.and_eq_true_iff.mp hsemi
    rw [ih, Scope.walk_of_step (Scope.candidate?_of_ne (Token.isSymbol_of_ne hsemi (by decide)))]
    simp [Scope.step, hopen, hclose, hsemi, htop]
  | case7 braces statement t ts _ _ _ candidate hcandidate ih =>
    rw [dite_eq_ite] at hcandidate
    rw [ih, Scope.walk_candidate (s := ⟨braces, statement⟩) hcandidate]
    rfl
  | case8 braces statement t ts hopen hclose hsemi hcandidate ih =>
    rw [dite_eq_ite] at hcandidate
    rw [ih, Scope.walk_of_step (s := ⟨braces, statement⟩) hcandidate]
    simp [Scope.step, hopen, hclose, hsemi, Scope.extend]

theorem Signature.extract_eq_walk (tokens : List Token) :
    extract tokens = Scope.start.walk (Token.significant tokens) :=
  extractFrom_eq_walk [] [] (Token.significant tokens)

/-! ## Names -/

theorem Scope.mem_statement_step {s : Scope} {t u : Token} (h : u ∈ (s.step t).statement) :
    u = t ∨ u ∈ s.statement := by
  rw [← List.mem_cons]
  rw [step] at h
  split at h
  · split at h
    · cases h
    · exact h
  · split at h
    · split at h
      · cases h
      · exact h
    · split at h
      · cases h
      · exact h

/-- The name of a signature is one of the tokens, and the signature stands there. -/
theorem Scope.exists_name_of_mem_walk {s : Scope} {ts : List Token} {signature : Signature}
    (h : signature ∈ s.walk ts) :
    ∃ t, (t ∈ s.statement ∨ t ∈ ts) ∧ t.kind = .identifier ∧ t.text = signature.name ∧
      t.position = signature.position := by
  induction ts generalizing s with
  | nil => cases h
  | cons t ts ih =>
    rw [walk, List.mem_append, Option.mem_toList, Option.map_eq_some_iff] at h
    rcases h with ⟨c, hc, rfl⟩ | h
    · rw [candidate?] at hc
      split at hc
      · obtain ⟨name, head, _, hstatement, hstarts, -, -, hsignature⟩ :=
          Candidate.read?_eq_some_iff.mp hc
        refine ⟨name, Or.inl ?_, hstarts.isIdentifier, ?_, ?_⟩
        · rw [hstatement]
          exact List.mem_cons_self
        · rw [hsignature]
          rfl
        · rw [hsignature]
          rfl
      · cases hc
    · obtain ⟨name, hname, hrest⟩ := ih h
      refine ⟨name, ?_, hrest⟩
      rcases hname with hname | hname
      · rcases mem_statement_step hname with rfl | hname
        · exact Or.inr List.mem_cons_self
        · exact Or.inl hname
      · exact Or.inr (List.mem_cons_of_mem t hname)

theorem Signature.exists_name_of_mem_extract {tokens : List Token} {s : Signature}
    (h : s ∈ extract tokens) :
    ∃ t ∈ tokens, t.kind = .identifier ∧ t.text = s.name ∧ t.position = s.position := by
  rw [extract_eq_walk] at h
  obtain ⟨t, hmem, hname⟩ := Scope.exists_name_of_mem_walk h
  refine ⟨t, ?_, hname⟩
  rcases hmem with hmem | hmem
  · cases hmem
  · exact (List.mem_filter.mp hmem).1

end HeaderLint
