import HeaderLint.DocComment
import HeaderLint.Proofs.Signature.Walk

/-!
# Where signatures stand

The walk keeps braces and a statement from token to token.  Here both are read off the
places of the tokens.

* `bracesBefore` replays every brace before a place, whatever stands around it.
* `statementStart` is the place behind the last token that ends a statement.

A `Span` is an opening parenthesis at top level with the closing one that matches it,
such that the tokens around them make up a signature.  `FunctionRecord.extract_spans`
says that the functions of a list of tokens are the records of all spans, in the order
of their opening parentheses.
-/

namespace HeaderLint

/-- The tokens from one place up to another. -/
def slice (ts : List Token) (first last : Nat) : List Token := (ts.take last).drop first

/-! ## Braces and statements by place -/

/-- The two tokens before a place are `extern` and a string. -/
def followsLinkage (ts : List Token) : Nat → Bool
  | i + 2 =>
    ts[i]?.any (Token.isKeyword · "extern") && ts[i + 1]?.any fun t => t.kind == .stringLiteral
  | _ => false

/-- The open braces before a place, from every brace before it. -/
def bracesBefore (ts : List Token) : Nat → List Brace
  | 0 => []
  | i + 1 =>
    let braces := bracesBefore ts i
    if ts[i]?.any (Token.isSymbol · "\x7b") then
      if isTopLevel braces && followsLinkage ts i then .linkage :: braces else .block :: braces
    else if ts[i]?.any (Token.isSymbol · "\x7d") then braces.tail
    else braces

/-- The token at a place ends a statement: a semicolon at top level, the opening brace
of a linkage block, or a closing brace that leaves no block open. -/
def endsStatement (ts : List Token) (i : Nat) : Bool :=
  (ts[i]?.any (Token.isSymbol · ";") && isTopLevel (bracesBefore ts i)) ||
    (ts[i]?.any (Token.isSymbol · "\x7b") && isTopLevel (bracesBefore ts i) &&
      followsLinkage ts i) ||
    (ts[i]?.any (Token.isSymbol · "\x7d") && isTopLevel (bracesBefore ts (i + 1)))

/-- The place behind the last token before a place that ends a statement. -/
def statementStart (ts : List Token) : Nat → Nat
  | 0 => 0
  | i + 1 => if endsStatement ts i then i + 1 else statementStart ts i

/-- The statement before a place. -/
def statementBefore (ts : List Token) (i : Nat) : List Token := slice ts (statementStart ts i) i

/-- The scope before a place. -/
def scopeBefore (ts : List Token) (i : Nat) : Scope :=
  ⟨bracesBefore ts i, (statementBefore ts i).reverse⟩

section
variable {ts : List Token} {i : Nat}

theorem slice_self (ts : List Token) (i : Nat) : slice ts i i = [] := by
  rw [slice, List.drop_eq_nil_iff, List.length_take]
  exact Nat.min_le_left i ts.length

theorem slice_succ {first : Nat} (hfirst : first ≤ i) (hi : i < ts.length) :
    slice ts first (i + 1) = slice ts first i ++ [ts[i]] := by
  have hlength : first ≤ (ts.take i).length := by
    rw [List.length_take]
    omega
  rw [slice, List.take_succ_eq_append_getElem hi, List.drop_append_of_le_length hlength]
  rfl

theorem statementStart_le (ts : List Token) (i : Nat) : statementStart ts i ≤ i := by
  induction i with
  | zero => exact Nat.le_refl 0
  | succ i ih =>
    rw [statementStart]
    split
    · exact Nat.le_refl _
    · exact Nat.le_succ_of_le ih

theorem statementBefore_succ (hi : i < ts.length) :
    statementBefore ts (i + 1) =
      if endsStatement ts i then [] else statementBefore ts i ++ [ts[i]] := by
  rw [statementBefore, statementStart]
  split
  · exact slice_self ts (i + 1)
  · exact slice_succ (statementStart_le ts i) hi

/-- A token that ends a statement is a symbol. -/
theorem isBoundary_of_endsStatement (hi : i < ts.length) (h : endsStatement ts i = true) :
    ts[i].isBoundary = true := by
  simp only [endsStatement, List.getElem?_eq_getElem hi, Option.any_some, Bool.or_eq_true,
    Bool.and_eq_true] at h
  rw [Token.isBoundary, Bool.or_eq_true, Bool.or_eq_true]
  rcases h with (⟨hsemi, -⟩ | ⟨⟨hopen, -⟩, -⟩) | ⟨hclose, -⟩
  · exact Or.inr hsemi
  · exact Or.inl (Or.inl hopen)
  · exact Or.inl (Or.inr hclose)

/-- Whether `extern` and a string stand before a place can be told from the statement,
since neither of the two ends one. -/
theorem endsWithLinkage_statementBefore (hi : i ≤ ts.length) :
    endsWithLinkage (statementBefore ts i).reverse = followsLinkage ts i := by
  match i with
  | 0 => rfl
  | 1 =>
    rw [statementBefore_succ hi]
    split <;> rfl
  | i + 2 =>
    have hi' : i < ts.length := by omega
    have hi'' : i + 1 < ts.length := by omega
    rw [statementBefore_succ hi'', followsLinkage, List.getElem?_eq_getElem hi',
      List.getElem?_eq_getElem hi'', Option.any_some, Option.any_some]
    split
    · next hends =>
      have hstring : (ts[i + 1].kind == .stringLiteral) = false := by
        rcases Token.kind_of_isBoundary (isBoundary_of_endsStatement hi'' hends) with h | h <;>
          rw [h] <;> rfl
      rw [hstring, Bool.and_false]
      rfl
    · rw [statementBefore_succ hi']
      split
      · next hends =>
        have hword : (ts[i].kind == .keyword) = false := by
          rcases Token.kind_of_isBoundary (isBoundary_of_endsStatement hi' hends) with h | h <;>
            rw [h] <;> rfl
        rw [Token.isKeyword, hword, Bool.false_and, Bool.false_and]
        rfl
      · rw [List.reverse_append, List.reverse_append]
        exact Bool.and_comm _ _

theorem bracesBefore_succ (hi : i < ts.length) :
    bracesBefore ts (i + 1) =
      if ts[i].isSymbol "\x7b" then
        if isTopLevel (bracesBefore ts i) && followsLinkage ts i then
          .linkage :: bracesBefore ts i
        else .block :: bracesBefore ts i
      else if ts[i].isSymbol "\x7d" then (bracesBefore ts i).tail
      else bracesBefore ts i := by
  rw [bracesBefore, List.getElem?_eq_getElem hi]
  rfl

/-- One token leads from the scope before its place to the scope behind it. -/
theorem scopeBefore_succ (hi : i < ts.length) :
    (scopeBefore ts i).step ts[i] = scopeBefore ts (i + 1) := by
  have hlinkage := endsWithLinkage_statementBefore (Nat.le_of_lt hi)
  have hextend : ts[i] :: (statementBefore ts i).reverse =
      (statementBefore ts i ++ [ts[i]]).reverse := by
    rw [List.reverse_append]
    rfl
  simp only [scopeBefore, Scope.step, Scope.extend, hlinkage, hextend, statementBefore_succ hi,
    endsStatement, List.getElem?_eq_getElem hi, Option.any_some, bracesBefore_succ hi]
  by_cases hopen : ts[i].isSymbol "\x7b" = true
  · have hclose : ts[i].isSymbol "\x7d" = false := Token.isSymbol_of_ne hopen (by decide)
    have hsemi : ts[i].isSymbol ";" = false := Token.isSymbol_of_ne hopen (by decide)
    simp only [hopen, hclose, hsemi, if_true, Bool.false_and, Bool.true_and, Bool.false_or,
      Bool.or_false]
    split <;> rfl
  · rw [Bool.not_eq_true] at hopen
    by_cases hclose : ts[i].isSymbol "\x7d" = true
    · have hsemi : ts[i].isSymbol ";" = false := Token.isSymbol_of_ne hclose (by decide)
      simp only [hopen, hclose, hsemi, if_true, Bool.false_and, Bool.true_and, Bool.false_or,
        Bool.false_eq_true, if_false]
      split <;> rfl
    · rw [Bool.not_eq_true] at hclose
      simp only [hopen, hclose, Bool.false_and, Bool.or_false, Bool.false_eq_true, if_false]
      split <;> rfl

/-- The name before a place, and the head before the name, by place. -/
theorem reverse_statementBefore_eq_cons {name : Token} {head : List Token} (hi : i ≤ ts.length) :
    (statementBefore ts i).reverse = name :: head.reverse ↔
      statementStart ts i < i ∧ ts[i - 1]? = some name ∧
        slice ts (statementStart ts i) (i - 1) = head := by
  rw [List.reverse_eq_iff, List.reverse_cons, List.reverse_reverse, statementBefore]
  rcases Nat.lt_or_eq_of_le (statementStart_le ts i) with hlt | heq
  · obtain ⟨k, rfl⟩ : ∃ k, i = k + 1 := ⟨i - 1, by omega⟩
    rw [slice_succ (Nat.le_of_lt_succ hlt) hi, Nat.add_sub_cancel, List.getElem?_eq_getElem hi,
      Option.some_inj]
    constructor
    · intro h
      obtain ⟨hhead, hname⟩ := List.append_inj' h rfl
      exact ⟨hlt, List.singleton_inj.mp hname, hhead⟩
    · rintro ⟨-, rfl, rfl⟩
      rfl
  · rw [heq, slice_self]
    constructor
    · intro h
      exact absurd h.symm (List.append_ne_nil_of_right_ne_nil _ (List.cons_ne_nil _ _))
    · rintro ⟨h, -⟩
      exact absurd h (Nat.lt_irrefl i)

/-- What stands between parentheses, by place. -/
theorem closesAfter_drop_iff {depth : Nat} {inside : List Token} :
    ClosesAfter depth (ts.drop i) inside ↔
      Encloses depth inside ∧ slice ts i (i + inside.length) = inside ∧
        ts[i + inside.length]?.any (Token.isSymbol · ")") = true := by
  rw [ClosesAfter, slice, List.drop_take, Nat.add_sub_cancel_left, ← List.getElem?_drop]
  constructor
  · rintro ⟨henc, close, rest, hts, hclose⟩
    refine ⟨henc, ?_, ?_⟩
    · rw [hts, List.take_left]
    · rw [hts, List.getElem?_append_right (Nat.le_refl _), Nat.sub_self]
      exact hclose
  · rintro ⟨henc, htake, hclose⟩
    obtain ⟨close, hget, hclose⟩ := (Option.any_eq_true _ _).mp hclose
    obtain ⟨hlt, rfl⟩ := List.getElem?_eq_some_iff.mp hget
    refine ⟨henc, _, (ts.drop i).drop (inside.length + 1), ?_, hclose⟩
    rw [← List.drop_eq_getElem_cons hlt]
    calc ts.drop i
        = (ts.drop i).take inside.length ++ (ts.drop i).drop inside.length :=
          (List.take_append_drop _ _).symm
      _ = inside ++ (ts.drop i).drop inside.length := by rw [htake]

end

/-! ## Spans -/

/-- The parentheses of a signature. -/
structure Span (ts : List Token) where
  /-- The place of the opening parenthesis. -/
  opening : Nat
  /-- The place of the closing parenthesis. -/
  closing : Nat
  /-- The one comes before the other. -/
  opening_lt : opening < closing
  /-- A token follows. -/
  closing_lt : closing + 1 < ts.length
  /-- The parenthesis opens. -/
  opens : ts[opening].isSymbol "(" = true
  /-- No block is open there. -/
  topLevel : isTopLevel (bracesBefore ts opening) = true
  /-- The statement has a token before the parenthesis. -/
  started : statementStart ts opening < opening
  /-- That token and what stands before it start a signature. -/
  starts : StartsSignature ts[opening - 1] (slice ts (statementStart ts opening) (opening - 1))
  /-- The parentheses match, and no brace and no semicolon stands between them. -/
  encloses : Encloses 0 (slice ts (opening + 1) closing)
  /-- The parenthesis closes. -/
  closes : ts[closing].isSymbol ")" = true
  /-- A brace or a semicolon follows directly. -/
  ends : ts[closing + 1].isSymbol "\x7b" = true ∨ ts[closing + 1].isSymbol ";" = true

namespace Span

variable {ts : List Token}

/-- The tokens of the statement before the name. -/
def head (span : Span ts) : List Token :=
  slice ts (statementStart ts span.opening) (span.opening - 1)

/-- The tokens between the parentheses. -/
def inside (span : Span ts) : List Token := slice ts (span.opening + 1) span.closing

/-- The signature around the parentheses. -/
def signature (span : Span ts) : Signature :=
  have := span.opening_lt
  have := span.closing_lt
  signatureOf ts[span.opening - 1] span.head span.inside (ts[span.closing + 1].isSymbol "\x7b")

/-- What the walk finds at the opening parenthesis. -/
def candidate (span : Span ts) : Candidate := ⟨span.signature, span.inside⟩

/-- The function around the parentheses, documented by a comment of the tokens. -/
def record (tokens : List Token) (span : Span ts) : FunctionRecord :=
  span.signature.withDocumentation tokens

theorem closing_eq (span : Span ts) : span.closing = span.opening + 1 + span.inside.length := by
  have hopening := span.opening_lt
  have hclosing := span.closing_lt
  rw [inside, slice, List.length_drop, List.length_take]
  omega

/-- A span is known by its opening parenthesis and what the walk finds there. -/
theorem ext {span span' : Span ts} (hopening : span.opening = span'.opening)
    (hcandidate : span.candidate = span'.candidate) : span = span' := by
  have hinside : span.inside = span'.inside := congrArg Candidate.inside hcandidate
  have hclosing : span.closing = span'.closing := by
    rw [closing_eq, closing_eq, hopening, hinside]
  cases span
  cases span'
  cases hopening
  cases hclosing
  rfl

end Span

/-- The candidate at a place that is a signature. -/
def candidateAt? (ts : List Token) (i : Nat) : Option Candidate :=
  ts[i]?.bind fun t => (scopeBefore ts i).candidate? t (ts.drop (i + 1))

/-- What the walk finds at a place is a span. -/
theorem exists_span {ts : List Token} {i : Nat} {c : Candidate} (h : candidateAt? ts i = some c) :
    ∃ span : Span ts, span.opening = i ∧ span.candidate = c := by
  obtain ⟨t, ht, hcandidate⟩ := Option.bind_eq_some_iff.mp h
  obtain ⟨hi, rfl⟩ := List.getElem?_eq_some_iff.mp ht
  rw [Scope.candidate?] at hcandidate
  split at hcandidate
  · next hparen =>
    obtain ⟨hopen, htop⟩ := Bool.and_eq_true_iff.mp hparen
    obtain ⟨name, head, isDefinition, hstatement, hstarts, hcloses, hterminator, hsignature⟩ :=
      Candidate.read?_eq_some_iff.mp hcandidate
    obtain ⟨hstarted, hname, rfl⟩ :=
      (reverse_statementBefore_eq_cons (Nat.le_of_lt hi)).mp hstatement
    obtain ⟨henc, hinside, hclose⟩ := closesAfter_drop_iff.mp hcloses
    obtain ⟨close, hget, hclose⟩ := (Option.any_eq_true _ _).mp hclose
    obtain ⟨next, hnext, hkind⟩ := Option.bind_eq_some_iff.mp hterminator
    rw [List.getElem?_drop] at hnext
    obtain ⟨_, rfl⟩ := List.getElem?_eq_some_iff.mp hname
    obtain ⟨_, rfl⟩ := List.getElem?_eq_some_iff.mp hget
    obtain ⟨hlt, rfl⟩ := List.getElem?_eq_some_iff.mp hnext
    obtain ⟨hends, rfl⟩ := terminatorKind?_eq_some_iff.mp hkind
    rw [← hinside] at henc
    refine ⟨⟨i, i + 1 + c.inside.length, by omega, hlt, hopen, htop, hstarted, hstarts, henc,
      hclose, hends⟩, rfl, ?_⟩
    obtain ⟨signature, inside⟩ := c
    rw [Span.candidate, Span.signature, Span.inside, Span.head, hinside]
    exact congrArg (Candidate.mk · inside) hsignature.symm
  · cases hcandidate

/-- The walk finds every span. -/
theorem Span.candidateAt?_opening {ts : List Token} (span : Span ts) :
    candidateAt? ts span.opening = some span.candidate := by
  have hclosing := span.closing_lt
  have hopening := span.opening_lt
  have hi : span.opening < ts.length := by omega
  have hplace := span.closing_eq
  have hstatement := (reverse_statementBefore_eq_cons (Nat.le_of_lt hi)).mpr
    ⟨span.started, List.getElem?_eq_getElem (by omega), rfl⟩
  have hcloses : ClosesAfter 0 (ts.drop (span.opening + 1)) span.inside := by
    refine closesAfter_drop_iff.mpr ⟨span.encloses, ?_, ?_⟩
    · rw [← hplace]
      rfl
    · rw [← hplace, List.getElem?_eq_getElem (by omega)]
      exact span.closes
  have hterminator : (ts.drop (span.opening + 1))[span.inside.length + 1]?.bind terminatorKind? =
      some (ts[span.closing + 1].isSymbol "\x7b") := by
    rw [List.getElem?_drop, ← Nat.add_assoc, ← hplace, List.getElem?_eq_getElem hclosing]
    exact terminatorKind?_eq_some_iff.mpr ⟨span.ends, rfl⟩
  rw [candidateAt?, List.getElem?_eq_getElem hi, Option.bind_some, Scope.candidate?,
    span.opens, scopeBefore, span.topLevel]
  exact Candidate.read?_eq_some_iff.mpr
    ⟨_, _, _, hstatement, span.starts, hcloses, hterminator, rfl⟩

/-- The walk from a place on finds the candidates of all places from there on. -/
theorem walk_scopeBefore {ts : List Token} (n i : Nat) (hn : i + n = ts.length) :
    (scopeBefore ts i).walk (ts.drop i) =
      ((List.range' i n).filterMap (candidateAt? ts)).map Candidate.signature := by
  induction n generalizing i with
  | zero =>
    have hi : ts.length ≤ i := Nat.le_of_eq hn.symm
    rw [List.drop_eq_nil_of_le hi]
    rfl
  | succ n ih =>
    have hi : i < ts.length := by omega
    have hcandidate : candidateAt? ts i =
        (scopeBefore ts i).candidate? ts[i] (ts.drop (i + 1)) := by
      rw [candidateAt?, List.getElem?_eq_getElem hi, Option.bind_some]
    rw [List.drop_eq_getElem_cons hi, Scope.walk, scopeBefore_succ hi, ih (i + 1) (by omega),
      List.range'_succ, List.filterMap_cons, hcandidate]
    cases (scopeBefore ts i).candidate? ts[i] (ts.drop (i + 1)) with
    | none => rfl
    | some c => rfl

/-- The candidates of increasing places come from spans. -/
theorem exists_spans {ts : List Token} {places : List Nat} (hplaces : places.Pairwise (· < ·)) :
    ∃ spans : List (Span ts),
      spans.Pairwise (fun span span' => span.opening < span'.opening) ∧
      (∀ span, span ∈ spans ↔ span.opening ∈ places) ∧
      places.filterMap (candidateAt? ts) = spans.map Span.candidate := by
  induction places with
  | nil => exact ⟨[], List.Pairwise.nil, by simp, rfl⟩
  | cons i places ih =>
    obtain ⟨hi, hplaces⟩ := List.pairwise_cons.mp hplaces
    obtain ⟨spans, hsorted, hmem, hmap⟩ := ih hplaces
    cases hc : candidateAt? ts i with
    | none =>
      refine ⟨spans, hsorted, ?_, ?_⟩
      · intro span
        have hne : span.opening ≠ i := by
          rintro rfl
          rw [span.candidateAt?_opening] at hc
          cases hc
        rw [hmem, List.mem_cons, or_iff_right hne]
      · rw [List.filterMap_cons_none hc, hmap]
    | some c =>
      obtain ⟨first, rfl, rfl⟩ := exists_span hc
      refine ⟨first :: spans, ?_, ?_, ?_⟩
      · rw [List.pairwise_cons]
        refine ⟨?_, hsorted⟩
        intro span hspan
        exact hi _ ((hmem span).mp hspan)
      · intro span
        have hfirst : span = first ↔ span.opening = first.opening := by
          constructor
          · intro hspan
            rw [hspan]
          · intro hspan
            have hcandidate := span.candidateAt?_opening
            rw [hspan, hc] at hcandidate
            exact Span.ext hspan (Option.some.inj hcandidate).symm
        rw [List.mem_cons, List.mem_cons, hmem, hfirst]
      · rw [List.filterMap_cons_some hc, hmap, List.map_cons]

/-- The signatures of a list of tokens are the candidates of its places. -/
theorem Signature.extract_eq_map_candidate (tokens : List Token) :
    extract tokens = ((List.range (Token.significant tokens).length).filterMap
      (candidateAt? (Token.significant tokens))).map Candidate.signature := by
  rw [List.range_eq_range', ← walk_scopeBefore _ 0 (Nat.zero_add _)]
  exact extractFrom_eq_walk [] [] (Token.significant tokens)

/-- The signatures of a list of tokens are those of its spans, each once and in the order of
their opening parentheses. -/
theorem Signature.exists_spans_extract (tokens : List Token) :
    ∃ spans : List (Span (Token.significant tokens)),
      spans.Pairwise (fun span span' => span.opening < span'.opening) ∧
      (∀ span, span ∈ spans) ∧ Signature.extract tokens = spans.map Span.signature := by
  have hplaces : (List.range (Token.significant tokens).length).Pairwise (· < ·) :=
    List.pairwise_lt_range
  obtain ⟨spans, hsorted, hmem, hmap⟩ := exists_spans hplaces
  refine ⟨spans, hsorted, ?_, ?_⟩
  · intro span
    have hopening := span.opening_lt
    have hclosing := span.closing_lt
    exact (hmem span).mpr (List.mem_range.mpr (by omega))
  · rw [Signature.extract_eq_map_candidate, hmap, List.map_map]
    rfl

namespace FunctionRecord

variable {tokens : List Token} {spans : List (Span (Token.significant tokens))}

theorem extract_eq_map_record (h : Signature.extract tokens = spans.map Span.signature) :
    FunctionRecord.extract tokens = spans.map (Span.record tokens) := by
  rw [extract, h, List.map_map]
  rfl

/-- A function is extracted just when it is the record of a span. -/
theorem mem_extract_iff {f : FunctionRecord} :
    f ∈ FunctionRecord.extract tokens ↔
      ∃ span : Span (Token.significant tokens), span.record tokens = f := by
  obtain ⟨spans, -, hall, hextract⟩ := Signature.exists_spans_extract tokens
  rw [extract_eq_map_record hextract, List.mem_map]
  exact exists_congr fun span => and_iff_right (hall span)

end FunctionRecord

/-- The functions of a list of tokens are the records of its spans, each once and in
the order of their opening parentheses. -/
theorem FunctionRecord.extract_spans (tokens : List Token) :
    ∃ spans : List (Span (Token.significant tokens)),
      spans.Pairwise (fun span span' => span.opening < span'.opening) ∧
      (∀ span, span ∈ spans) ∧
      FunctionRecord.extract tokens = spans.map (Span.record tokens) := by
  obtain ⟨spans, hsorted, hall, hextract⟩ := Signature.exists_spans_extract tokens
  exact ⟨spans, hsorted, hall, extract_eq_map_record hextract⟩

end HeaderLint
