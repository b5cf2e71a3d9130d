import HeaderLint.Proofs.Signature.Appended
import HeaderLint.Proofs.Signature.Spans

/-!
# The walk in pieces

A candidate looks no further than the next brace or semicolon, so behind one of these the walk
may be cut in two: what it finds in the first piece does not depend on the second
(`Scope.walk_append`).  The second piece starts in the scope that the first one leaves
(`Scope.run`), which can be read off by place (`Scope.run_start`).

Two questions about what stands behind some tokens are asked by place.

* Does a brace open a linkage block there (`opensLinkage`)?
* Does a statement start there (`StartsStatement`)?
-/

namespace HeaderLint

namespace Scope

/-! ## The scope after tokens -/

/-- The scope after tokens. -/
def run (s : Scope) (ts : List Token) : Scope := ts.foldl step s

@[simp] theorem run_nil (s : Scope) : s.run [] = s := rfl

@[simp] theorem run_cons (s : Scope) (t : Token) (ts : List Token) :
    s.run (t :: ts) = (s.step t).run ts := rfl

theorem run_append (s : Scope) (ts us : List Token) : s.run (ts ++ us) = (s.run ts).run us :=
  List.foldl_append

theorem run_take_start (ts : List Token) {i : Nat} (hi : i ≤ ts.length) :
    start.run (ts.take i) = scopeBefore ts i := by
  induction i with
  | zero => rfl
  | succ i ih =>
    rw [List.take_succ_eq_append_getElem hi, run_append, ih (Nat.le_of_succ_le hi), run_cons,
      run_nil, scopeBefore_succ hi]

/-- The scope after tokens is what their places say. -/
theorem run_start (ts : List Token) : start.run ts = scopeBefore ts ts.length := by
  rw [← run_take_start ts (Nat.le_refl _), List.take_length]

/-! ## Cutting the walk -/

/-- A candidate looks no further than the next brace or semicolon. -/
theorem candidate?_append_of_isBoundary {s : Scope} {t b : Token} {ts : List Token} (hb : b ∈ ts)
    (hboundary : b.isBoundary = true) (us : List Token) :
    s.candidate? t (ts ++ us) = s.candidate? t ts := by
  cases hc : s.candidate? t ts with
  | some c => exact candidate?_append hc us
  | none =>
    rw [Option.eq_none_iff_forall_ne_some]
    intro c hall
    rcases candidate?_of_append hall with hsome | hplain
    · rw [hc] at hsome
      cases hsome
    · rw [hplain b hb] at hboundary
      cases hboundary

theorem candidate?_of_isBoundary {s : Scope} {t : Token} (h : t.isBoundary = true)
    (rest : List Token) : s.candidate? t rest = none := by
  refine candidate?_of_ne ?_
  rw [← Bool.not_eq_true]
  intro hparen
  rw [Token.isBoundary_of_isSymbol hparen (by decide)] at h
  cases h

/-- Behind a brace or a semicolon the walk may be cut in two. -/
theorem walk_append (s : Scope) {ts : List Token} (h : ∀ t ∈ ts.getLast?, t.isBoundary = true)
    (us : List Token) : s.walk (ts ++ us) = s.walk ts ++ (s.run ts).walk us := by
  induction ts generalizing s with
  | nil => rfl
  | cons t ts ih =>
    have hcandidate : s.candidate? t (ts ++ us) = s.candidate? t ts := by
      cases ts with
      | nil => rw [candidate?_of_isBoundary (h t rfl), candidate?_of_isBoundary (h t rfl)]
      | cons u ts =>
        have hlast := List.getLast?_eq_some_getLast (List.cons_ne_nil u ts)
        rw [List.getLast?_cons_cons] at h
        exact candidate?_append_of_isBoundary (List.getLast_mem _) (h _ hlast) us
    have htail : ∀ u ∈ ts.getLast?, u.isBoundary = true := by
      intro u hu
      refine h u ?_
      rw [List.getLast?_cons, Option.mem_def.mp hu]
      rfl
    rw [List.cons_append, walk, walk, hcandidate, ih (s.step t) htail, List.append_assoc, run_cons]

theorem walk_append_cons (s : Scope) (ts : List Token) {t : Token} (ht : t.isBoundary = true)
    (us : List Token) :
    s.walk (ts ++ t :: us) = s.walk (ts ++ [t]) ++ ((s.run ts).step t).walk us := by
  have hlast : ∀ u ∈ (ts ++ [t]).getLast?, u.isBoundary = true := by
    intro u hu
    rw [List.getLast?_concat, Option.mem_some] at hu
    rwa [← hu]
  rw [← List.singleton_append, ← List.append_assoc, walk_append s hlast, run_append, run_cons,
    run_nil]

end Scope

/-! ## Behind some tokens -/

/-- A brace behind the tokens opens a linkage block: no block is open there, and the last two
tokens that carry structure are `extern` and a string. -/
def opensLinkage (tokens : List Token) : Bool :=
  isTopLevel (bracesBefore (Token.significant tokens) (Token.significant tokens).length) &&
    followsLinkage (Token.significant tokens) (Token.significant tokens).length

/-- A statement starts behind the tokens: none of them carries structure, or the last one that
does ends a statement at top level. -/
def StartsStatement (tokens : List Token) : Prop :=
  Token.significant tokens = [] ∨
    endsStatement (Token.significant tokens) ((Token.significant tokens).length - 1) = true

instance (tokens : List Token) : Decidable (StartsStatement tokens) :=
  inferInstanceAs (Decidable (_ ∨ _))

/-- A brace that opens no linkage block opens a block. -/
theorem braces_step_of_opensLinkage {tokens : List Token} {t : Token}
    (ht : t.isSymbol "\x7b" = true) (h : opensLinkage tokens = false) :
    ((Scope.start.run (Token.significant tokens)).step t).braces =
      .block :: (Scope.start.run (Token.significant tokens)).braces := by
  rw [opensLinkage, ← endsWithLinkage_statementBefore (Nat.le_refl _)] at h
  rw [Scope.run_start, Scope.step, if_pos ht, scopeBefore, h]
  rfl

theorem isTopLevel_linkage (braces : List Brace) :
    isTopLevel (.linkage :: braces) = isTopLevel braces := by
  simp [isTopLevel]

/-- No block is open behind a token that ends a statement. -/
theorem isTopLevel_of_endsStatement {ts : List Token} {i : Nat} (hi : i < ts.length)
    (h : endsStatement ts i = true) : isTopLevel (bracesBefore ts (i + 1)) = true := by
  simp only [endsStatement, List.getElem?_eq_getElem hi, Option.any_some, Bool.or_eq_true,
    Bool.and_eq_true] at h
  rcases h with (⟨hsemi, htop⟩ | ⟨⟨hopen, htop⟩, hlinkage⟩) | ⟨-, htop⟩
  · have hopen : ts[i].isSymbol "\x7b" = false := Token.isSymbol_of_ne hsemi (by decide)
    have hclose : ts[i].isSymbol "\x7d" = false := Token.isSymbol_of_ne hsemi (by decide)
    simp [bracesBefore_succ hi, hopen, hclose, htop]
  · simp [bracesBefore_succ hi, hopen, htop, hlinkage, isTopLevel_linkage]
  · exact htop

namespace StartsStatement

variable {tokens : List Token}

theorem isBoundary_getLast? (h : StartsStatement tokens) :
    ∀ t ∈ (Token.significant tokens).getLast?, t.isBoundary = true := by
  intro t ht
  rcases h with hnil | hends
  · rw [hnil] at ht
    cases ht
  · rw [List.getLast?_eq_getElem?] at ht
    obtain ⟨hlt, rfl⟩ := List.getElem?_eq_some_iff.mp ht
    exact isBoundary_of_endsStatement hlt hends

/-- No block is open where a statement starts, and the statement has no token yet. -/
theorem run_eq (h : StartsStatement tokens) :
    ∃ braces, isTopLevel braces = true ∧
      Scope.start.run (Token.significant tokens) = ⟨braces, []⟩ := by
  rcases h with hnil | hends
  · rw [hnil]
    exact ⟨[], rfl, rfl⟩
  · generalize Token.significant tokens = ts at hends ⊢
    cases hlength : ts.length with
    | zero =>
      rw [List.eq_nil_of_length_eq_zero hlength]
      exact ⟨[], rfl, rfl⟩
    | succ i =>
      have hi : i < ts.length := by omega
      rw [hlength, Nat.add_sub_cancel] at hends
      refine ⟨bracesBefore ts (i + 1), ?_, ?_⟩
      · exact isTopLevel_of_endsStatement hi hends
      · rw [Scope.run_start, hlength, scopeBefore, statementBefore_succ hi, if_pos hends]
        rfl

end StartsStatement

end HeaderLint
