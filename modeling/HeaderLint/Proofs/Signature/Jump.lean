import HeaderLint.Proofs.Signature.Spans

/-!
# Over the parentheses of a signature

Behind a signature the search goes on at the token that ends it.  Nothing is lost between its
parentheses: no brace and no semicolon stands there, so the open braces and the start of the
statement are the same behind them as before (`Span.bracesBefore_eq`, `Span.statementStart_eq`), and
no signature starts there, since the statement has a parenthesis (`Span.candidateAt?_eq_none`).

So the functions found before a place are the same, whether the search has come there token by
token or over parentheses (`FunctionRecord.before_nextPlace`).
-/

namespace HeaderLint

open Token

theorem getElem_mem_slice {ts : List Token} {first i last : Nat} (hfirst : first ≤ i)
    (hlast : i < last) (hi : i < ts.length) : ts[i] ∈ slice ts first last := by
  rw [List.mem_iff_getElem?]
  refine ⟨i - first, ?_⟩
  rw [slice, List.getElem?_drop, Nat.add_sub_cancel' hfirst, List.getElem?_take_of_lt hlast,
    List.getElem?_eq_getElem hi]

/-! ## Plain tokens -/

section
variable {ts : List Token} {i : Nat} (hi : i < ts.length) (h : ts[i].isBoundary = false)
include h

theorem bracesBefore_succ_of_plain : bracesBefore ts (i + 1) = bracesBefore ts i := by
  simp only [isBoundary, Bool.or_eq_false_iff] at h
  rw [bracesBefore_succ hi, h.1.1, h.1.2]
  rfl

theorem statementStart_succ_of_plain : statementStart ts (i + 1) = statementStart ts i := by
  have hends : endsStatement ts i = false := by
    rw [← Bool.not_eq_true]
    intro hends
    rw [isBoundary_of_endsStatement hi hends] at h
    cases h
  rw [statementStart, hends]
  rfl

end

namespace Span

variable {ts : List Token} (span : Span ts) {i : Nat}

/-- The parentheses and what stands between them are no braces and no semicolons. -/
theorem isBoundary_getElem (hopening : span.opening ≤ i) (hclosing : i ≤ span.closing)
    (hi : i < ts.length) : ts[i].isBoundary = false := by
  rcases Nat.lt_or_eq_of_le hopening with hopening | rfl
  · rcases Nat.lt_or_eq_of_le hclosing with hclosing | rfl
    · exact span.encloses.plain _ (getElem_mem_slice hopening hclosing hi)
    · exact isBoundary_of_isSymbol span.closes (by decide)
  · exact isBoundary_of_isSymbol span.opens (by decide)

/-- What a plain token does not change is the same behind the parentheses as before. -/
theorem eq_opening {α : Type} {f : Nat → α}
    (hplain : ∀ k (hk : k < ts.length), ts[k].isBoundary = false → f (k + 1) = f k)
    (hopening : span.opening ≤ i) (hclosing : i ≤ span.closing + 1) : f i = f span.opening := by
  induction hopening with
  | refl => rfl
  | @step k hopening ih =>
    have hk : k < ts.length := by
      have := span.closing_lt
      omega
    have hboundary := span.isBoundary_getElem hopening (Nat.le_of_succ_le_succ hclosing) hk
    exact (hplain k hk hboundary).trans (ih (Nat.le_of_succ_le hclosing))

theorem bracesBefore_eq (hopening : span.opening ≤ i) (hclosing : i ≤ span.closing + 1) :
    bracesBefore ts i = bracesBefore ts span.opening :=
  span.eq_opening (fun _ hk => bracesBefore_succ_of_plain hk) hopening hclosing

theorem statementStart_eq (hopening : span.opening ≤ i) (hclosing : i ≤ span.closing + 1) :
    statementStart ts i = statementStart ts span.opening :=
  span.eq_opening (fun _ hk => statementStart_succ_of_plain hk) hopening hclosing

/-- No signature starts between the parentheses of another. -/
theorem candidateAt?_eq_none (hopening : span.opening < i) (hclosing : i ≤ span.closing) :
    candidateAt? ts i = none := by
  have hlt := span.closing_lt
  have hi : i < ts.length := by omega
  have hopen : span.opening < ts.length := by omega
  have hstart : statementStart ts i ≤ span.opening := by
    rw [span.statementStart_eq (Nat.le_of_lt hopening) (Nat.le_succ_of_le hclosing)]
    exact statementStart_le ts span.opening
  have hmem : ts[span.opening] ∈ (scopeBefore ts i).statement :=
    List.mem_reverse.mpr (getElem_mem_slice hstart hopening hopen)
  rw [candidateAt?, List.getElem?_eq_getElem hi, Option.bind_some]
  exact Scope.candidate?_of_misfit_mem hmem (isMisfit_of_isSymbol span.opens (by decide))

end Span

/-! ## The search goes on -/

section
variable {ts : List Token} {i : Nat}

theorem candidateAt?_of_ne (hi : i < ts.length) (hparen : ts[i].isSymbol "(" = false) :
    candidateAt? ts i = none := by
  rw [candidateAt?, List.getElem?_eq_getElem hi, Option.bind_some, Scope.candidate?_of_ne hparen]

/-- A candidate needs a name in its statement. -/
theorem candidateAt?_of_paren (hi : i < ts.length) (hparen : ts[i].isSymbol "(" = true) :
    candidateAt? ts i =
      if isTopLevel (bracesBefore ts i) && decide (statementStart ts i < i) then
        Candidate.read? (slice ts (statementStart ts i) i).reverse (ts.drop (i + 1))
      else none := by
  rw [candidateAt?, List.getElem?_eq_getElem hi, Option.bind_some, Scope.candidate?, hparen,
    Bool.true_and, scopeBefore, statementBefore]
  rcases Nat.lt_or_eq_of_le (statementStart_le ts i) with hlt | heq
  · rw [decide_eq_true hlt, Bool.and_true]
  · rw [heq, slice_self, List.reverse_nil, Candidate.read?, ite_self, ite_self]

end

/-- The place where the search goes on behind a place. -/
def nextPlace (ts : List Token) (i : Nat) : Nat :=
  match candidateAt? ts i with
  | some c => i + 1 + c.inside.length + 1
  | none => i + 1

theorem nextPlace_le {ts : List Token} {i : Nat} (hi : i < ts.length) :
    nextPlace ts i ≤ ts.length := by
  rw [nextPlace]
  split
  · next c hc =>
    obtain ⟨span, rfl, rfl⟩ := exists_span hc
    have hclosing : span.closing = span.opening + 1 + span.candidate.inside.length :=
      span.closing_eq
    rw [← hclosing]
    exact Nat.le_of_lt span.closing_lt
  · exact hi

namespace FunctionRecord

/-- The functions whose parentheses open before a place. -/
def before (tokens : List Token) (i : Nat) : List FunctionRecord :=
  ((List.range i).filterMap (candidateAt? (significant tokens))).map fun c =>
    c.signature.withDocumentation tokens

variable (tokens : List Token) {i : Nat}

theorem before_succ (i : Nat) :
    before tokens (i + 1) = before tokens i ++ ((candidateAt? (significant tokens) i).map fun c =>
      c.signature.withDocumentation tokens).toList := by
  rw [before, List.range_succ, List.filterMap_append, List.map_append]
  congr 1
  cases h : candidateAt? (significant tokens) i with
  | none => rw [List.filterMap_cons_none h]; rfl
  | some c => rw [List.filterMap_cons_some h]; rfl

/-- Over the parentheses of a signature no other function is found. -/
theorem before_closing (span : Span (significant tokens)) :
    before tokens (span.closing + 1) = before tokens (span.opening + 1) := by
  have hskip : ∀ n, span.opening + 1 + n ≤ span.closing + 1 →
      before tokens (span.opening + 1 + n) = before tokens (span.opening + 1) := by
    intro n hn
    induction n with
    | zero => rfl
    | succ n ih =>
      rw [← Nat.add_assoc, before_succ, span.candidateAt?_eq_none (by omega) (by omega),
        Option.map_none, Option.toList_none, List.append_nil, ih (by omega)]
  have hopening := span.opening_lt
  have hclosing := hskip (span.closing - span.opening) (by omega)
  rwa [show span.opening + 1 + (span.closing - span.opening) = span.closing + 1 by omega]
    at hclosing

theorem before_nextPlace (i : Nat) :
    before tokens (nextPlace (significant tokens) i) = before tokens (i + 1) := by
  rw [nextPlace]
  split
  · next c hc =>
    obtain ⟨span, rfl, rfl⟩ := exists_span hc
    have hclosing : span.closing = span.opening + 1 + span.candidate.inside.length :=
      span.closing_eq
    rw [← hclosing]
    exact before_closing tokens span
  · rfl

theorem before_length : before tokens (significant tokens).length = extract tokens := by
  rw [before, extract, Signature.extract_eq_map_candidate, List.map_map]
  rfl

end FunctionRecord

end HeaderLint
