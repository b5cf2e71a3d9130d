import HeaderLint.Proofs.Checked.Candidate
import HeaderLint.Proofs.Checked.Comment
import HeaderLint.Proofs.Signature.Jump

/-!
# The search by place

The search keeps a place among the tokens that carry structure, the open braces, the place where
the statement starts, and the functions found so far (`Checked.Cursor`).  A step looks at one token
and goes on behind it, or behind the parentheses of a signature.

Each step goes forward (`Checked.Cursor.index_lt_of_step`), so a search ends.  The cursor at a place
is known from the place alone (`Checked.cursorAt`), and from there a step fails nowhere and leads
to the cursor at the next place (`Checked.step_cursorAt`).  So the whole search fails nowhere and
finds the functions, whatever the tokens are (`Checked.extract_faultless`).  What is asked is that
numbers go as far as the number of tokens and beyond the last line of each of them.
-/

namespace HeaderLint

namespace Checked

open Token

variable (limit : Nat)

/-! ## The search -/

/-- The two tokens before a place are `extern` and a string. -/
def followsLinkage (ts : List Token) (i : Nat) : Except Fault Bool :=
  if 2 ≤ i then do
    let string ← item ts (← less i 1)
    if string.kind == .stringLiteral then return (← item ts (← less i 2)).isKeyword "extern"
    else return false
  else return false

/-- A brace at a place opens a linkage block. -/
def opensLinkage (ts : List Token) (braces : List Brace) (i : Nat) : Except Fault Bool :=
  if isTopLevel braces then followsLinkage ts i else return false

/-- The function of a signature, with its documentation among the tokens. -/
def withDocumentation (tokens : List Token) (s : Signature) : Except Fault FunctionRecord := do
  let comment ← comment? limit tokens s.position
  let near := comment.filter fun d => d.reaches s.position.line
  return { s with documentation := near.map DocComment.text }

/-- What the search keeps. -/
structure Cursor where
  /-- The open braces, innermost first. -/
  braces : List Brace
  /-- The place where the statement starts. -/
  statementStart : Nat
  /-- The place of the next token. -/
  index : Nat
  /-- The functions found so far. -/
  found : List FunctionRecord

namespace Cursor

/-- The search starts before the first token. -/
def start : Cursor := ⟨[], 0, 0, []⟩

/-- One step over the tokens that carry structure. -/
def step (tokens : List Token) (c : Cursor) : Except Fault Cursor := do
  let ts := significant tokens
  let t ← item ts c.index
  if t.isSymbol "\x7b" then
    let isLinkage ← opensLinkage ts c.braces c.index
    let next ← sum limit c.index 1
    if isLinkage then
      return { c with braces := .linkage :: c.braces, statementStart := next, index := next }
    else return { c with braces := .block :: c.braces, index := next }
  else if t.isSymbol "\x7d" then
    let next ← sum limit c.index 1
    if isTopLevel c.braces.tail then
      return { c with braces := c.braces.tail, statementStart := next, index := next }
    else return { c with braces := c.braces.tail, index := next }
  else if t.isSymbol ";" && isTopLevel c.braces then
    let next ← sum limit c.index 1
    return { c with statementStart := next, index := next }
  else if t.isSymbol "(" && isTopLevel c.braces && decide (c.statementStart < c.index) then
    match ← candidate? limit ts c.statementStart c.index with
    | some (s, closing) =>
      let f ← withDocumentation limit tokens s
      return { c with found := c.found ++ [f], index := ← sum limit closing 1 }
    | none => return { c with index := ← sum limit c.index 1 }
  else return { c with index := ← sum limit c.index 1 }

/-- Each step goes forward. -/
theorem index_lt_of_step {limit : Nat} {tokens : List Token} {c next : Cursor}
    (h : c.step limit tokens = .ok next) : c.index < next.index := by
  rw [step] at h
  obtain ⟨t, -, h⟩ := exists_of_bind_eq_ok h
  have hnext : ∀ {place : Nat}, sum limit c.index 1 = .ok place → c.index < place := by
    intro place hplace
    rw [eq_add_of_sum_eq_ok hplace]
    exact Nat.lt_succ_self _
  split at h
  · obtain ⟨isLinkage, -, h⟩ := exists_of_bind_eq_ok h
    obtain ⟨place, hplace, h⟩ := exists_of_bind_eq_ok h
    split at h <;> cases h <;> exact hnext hplace
  · split at h
    · obtain ⟨place, hplace, h⟩ := exists_of_bind_eq_ok h
      split at h <;> cases h <;> exact hnext hplace
    · split at h
      · obtain ⟨place, hplace, h⟩ := exists_of_bind_eq_ok h
        cases h
        exact hnext hplace
      · split at h
        · obtain ⟨found, hfound, h⟩ := exists_of_bind_eq_ok h
          cases found with
          | some found =>
            obtain ⟨f, -, h⟩ := exists_of_bind_eq_ok h
            obtain ⟨place, hplace, h⟩ := exists_of_bind_eq_ok h
            cases h
            have hle := (places_of_candidate?_eq_ok hfound).1
            rw [eq_add_of_sum_eq_ok hplace]
            exact Nat.lt_succ_of_le hle
          | none =>
            obtain ⟨place, hplace, h⟩ := exists_of_bind_eq_ok h
            cases h
            exact hnext hplace
        · obtain ⟨place, hplace, h⟩ := exists_of_bind_eq_ok h
          cases h
          exact hnext hplace

end Cursor

/-- The search from a cursor on. -/
def run (tokens : List Token) (c : Cursor) : Except Fault (List FunctionRecord) :=
  if c.index < (significant tokens).length then
    match h : c.step limit tokens with
    | .ok next =>
      have _hnext : c.index < next.index := Cursor.index_lt_of_step h
      run tokens next
    | .error fault => .error fault
  else .ok c.found
termination_by (significant tokens).length - c.index

/-- The functions of a list of tokens. -/
def extract (tokens : List Token) : Except Fault (List FunctionRecord) :=
  run limit tokens Cursor.start

/-- The cursors of a search, each with the number of steps before it. -/
inductive Reached (tokens : List Token) : Nat → Cursor → Prop where
  | start : Reached tokens 0 Cursor.start
  | step {n : Nat} {c next : Cursor} : Reached tokens n c →
      c.index < (significant tokens).length → c.step limit tokens = .ok next →
      Reached tokens (n + 1) next

variable {limit}

section
variable {tokens : List Token} {i : Nat}

theorem followsLinkage_eq {ts : List Token} (hi : i ≤ ts.length) :
    followsLinkage ts i = .ok (HeaderLint.followsLinkage ts i) := by
  match i with
  | 0 | 1 => rfl
  | i + 2 =>
    have hword : i < ts.length := by omega
    have hstring : i + 1 < ts.length := by omega
    have hone : less (i + 2) 1 = .ok (i + 1) := less_eq (Nat.le_add_left 1 (i + 1))
    have htwo : less (i + 2) 2 = .ok i := less_eq (Nat.le_add_left 2 i)
    rw [followsLinkage, if_pos (Nat.le_add_left 2 i), hone, ok_bind, item_eq hstring, ok_bind, htwo,
      ok_bind, item_eq hword, ok_bind, HeaderLint.followsLinkage, List.getElem?_eq_getElem hword,
      List.getElem?_eq_getElem hstring, Option.any_some, Option.any_some]
    cases ts[i + 1].kind == .stringLiteral with
    | true => rw [Bool.and_true]; rfl
    | false => rw [Bool.and_false]; rfl

theorem withDocumentation_eq (hlines : ∀ t ∈ tokens, t.endLine < limit) (s : Signature) :
    withDocumentation limit tokens s = .ok (s.withDocumentation tokens) := by
  rw [withDocumentation, comment?_eq hlines]
  rfl

theorem opensLinkage_eq {ts : List Token} (braces : List Brace) (hi : i ≤ ts.length) :
    opensLinkage ts braces i = .ok (isTopLevel braces && HeaderLint.followsLinkage ts i) := by
  rw [opensLinkage, followsLinkage_eq hi]
  cases isTopLevel braces <;> rfl

/-- The cursor at a place. -/
def cursorAt (tokens : List Token) (i : Nat) : Cursor :=
  ⟨bracesBefore (significant tokens) i, statementStart (significant tokens) i, i,
    FunctionRecord.before tokens i⟩

/-- Where no signature starts, the cursor at the next place has the same functions. -/
theorem cursorAt_nextPlace (hnone : candidateAt? (significant tokens) i = none) :
    cursorAt tokens (nextPlace (significant tokens) i) =
      { braces := bracesBefore (significant tokens) (i + 1)
        statementStart := statementStart (significant tokens) (i + 1)
        index := i + 1
        found := FunctionRecord.before tokens i } := by
  rw [nextPlace, hnone, cursorAt, FunctionRecord.before_succ, hnone, Option.map_none,
    Option.toList_none, List.append_nil]

/-- A token that opens no parenthesis is stepped over. -/
theorem step_cursorAt_of_ne (hi : i < (significant tokens).length)
    (hlength : (significant tokens).length ≤ limit)
    (hparen : (significant tokens)[i].isSymbol "(" = false) :
    (cursorAt tokens i).step limit tokens =
      .ok (cursorAt tokens (nextPlace (significant tokens) i)) := by
  have hnext : sum limit i 1 = .ok (i + 1) := sum_eq (Nat.le_trans hi hlength)
  rw [cursorAt_nextPlace (candidateAt?_of_ne hi hparen)]
  simp only [Cursor.step, cursorAt, item_eq hi, hnext, ok_bind, opensLinkage_eq _ (Nat.le_of_lt hi),
    hparen, statementStart, endsStatement, List.getElem?_eq_getElem hi, Option.any_some,
    bracesBefore_succ hi]
  generalize (significant tokens)[i] = t
  by_cases hopen : t.isSymbol "\x7b" = true
  · have hclose : t.isSymbol "\x7d" = false := isSymbol_of_ne hopen (by decide)
    have hsemi : t.isSymbol ";" = false := isSymbol_of_ne hopen (by decide)
    simp only [hopen, hclose, hsemi, if_true, Bool.false_and, Bool.true_and, Bool.false_or,
      Bool.or_false]
    split <;> rfl
  · rw [Bool.not_eq_true] at hopen
    by_cases hclose : t.isSymbol "\x7d" = true
    · have hsemi : t.isSymbol ";" = false := isSymbol_of_ne hclose (by decide)
      simp only [hopen, hclose, hsemi, if_true, Bool.false_and, Bool.true_and, Bool.false_or,
        Bool.false_eq_true, if_false]
      by_cases htop : isTopLevel (bracesBefore (significant tokens) i).tail = true
      · simp only [htop, if_true]
        rfl
      · simp only [htop, Bool.false_eq_true, if_false]
        rfl
    · rw [Bool.not_eq_true] at hclose
      simp only [hopen, hclose, Bool.false_and, Bool.or_false, Bool.false_eq_true, if_false]
      split <;> rfl

theorem cursorAt_nextPlace_of_plain (hi : i < (significant tokens).length)
    (hplain : (significant tokens)[i].isBoundary = false)
    (hnone : candidateAt? (significant tokens) i = none) :
    cursorAt tokens (nextPlace (significant tokens) i) =
      { cursorAt tokens i with index := i + 1 } := by
  rw [cursorAt_nextPlace hnone, bracesBefore_succ_of_plain hi hplain,
    statementStart_succ_of_plain hi hplain]
  rfl

/-- Behind a signature the cursor has one function more. -/
theorem cursorAt_nextPlace_of_some {c : Candidate}
    (hc : candidateAt? (significant tokens) i = some c) :
    i + 1 + c.inside.length + 1 < (significant tokens).length ∧
      cursorAt tokens (nextPlace (significant tokens) i) =
        { cursorAt tokens i with
          index := i + 1 + c.inside.length + 1
          found := FunctionRecord.before tokens i ++ [c.signature.withDocumentation tokens] } := by
  have hfound : FunctionRecord.before tokens (nextPlace (significant tokens) i) =
      FunctionRecord.before tokens i ++ [c.signature.withDocumentation tokens] := by
    rw [FunctionRecord.before_nextPlace, FunctionRecord.before_succ, hc]
    rfl
  have hplace : nextPlace (significant tokens) i = i + 1 + c.inside.length + 1 := by
    rw [nextPlace, hc]
  rw [hplace] at hfound
  obtain ⟨span, rfl, rfl⟩ := exists_span hc
  have hclosing : span.closing = span.opening + 1 + span.candidate.inside.length := span.closing_eq
  have hopening : span.opening ≤ span.closing + 1 :=
    Nat.le_succ_of_le (Nat.le_of_lt span.opening_lt)
  rw [hplace, cursorAt, hfound, ← hclosing, span.bracesBefore_eq hopening (Nat.le_refl _),
    span.statementStart_eq hopening (Nat.le_refl _)]
  exact ⟨span.closing_lt, rfl⟩

/-- At an opening parenthesis the candidate is read, and the step leads over it. -/
theorem step_cursorAt_paren (hi : i < (significant tokens).length)
    (hlength : (significant tokens).length ≤ limit) (hlines : ∀ t ∈ tokens, t.endLine < limit)
    (hparen : (significant tokens)[i].isSymbol "(" = true) :
    (cursorAt tokens i).step limit tokens =
      .ok (cursorAt tokens (nextPlace (significant tokens) i)) := by
  have hindex : sum limit (cursorAt tokens i).index 1 = .ok (i + 1) :=
    sum_eq (Nat.le_trans hi hlength)
  have hopen : (significant tokens)[i].isSymbol "\x7b" = false := isSymbol_of_ne hparen (by decide)
  have hclose : (significant tokens)[i].isSymbol "\x7d" = false := isSymbol_of_ne hparen (by decide)
  have hsemi : (significant tokens)[i].isSymbol ";" = false := isSymbol_of_ne hparen (by decide)
  have hplain : (significant tokens)[i].isBoundary = false :=
    isBoundary_of_isSymbol hparen (by decide)
  have hcandidate := candidateAt?_of_paren hi hparen
  have hitem : item (significant tokens) (cursorAt tokens i).index = .ok (significant tokens)[i] :=
    item_eq hi
  -- Only the two branches for a parenthesis are left.
  rw [Cursor.step, hitem, ok_bind, hopen, hclose, hsemi, hparen]
  change (if (isTopLevel (bracesBefore _ i) && decide (statementStart _ i < i)) = true then
    candidate? limit _ (statementStart _ i) i >>= _ else sum limit i 1 >>= _) = _
  split
  · next hstarts =>
    have hstart := of_decide_eq_true (Bool.and_eq_true_iff.mp hstarts).2
    rw [if_pos hstarts] at hcandidate
    rw [candidate?_eq hstart hi hparen hlength, ok_bind, ← hcandidate]
    cases hc : candidateAt? (significant tokens) i with
    | none =>
      rw [cursorAt_nextPlace_of_plain hi hplain hc]
      simp only [Option.map_none, hindex, ok_bind]
      rfl
    | some c =>
      obtain ⟨hlt, hcursor⟩ := cursorAt_nextPlace_of_some hc
      have hsum : sum limit (i + 1 + c.inside.length) 1 = .ok (i + 1 + c.inside.length + 1) :=
        sum_eq (Nat.le_trans (Nat.le_of_lt hlt) hlength)
      rw [hcursor]
      simp only [Option.map_some, withDocumentation_eq hlines, hsum, ok_bind]
      rfl
  · next hstarts =>
    rw [if_neg hstarts] at hcandidate
    rw [cursorAt_nextPlace_of_plain hi hplain hcandidate]
    exact congrArg (· >>= _) hindex

theorem step_cursorAt (hi : i < (significant tokens).length)
    (hlength : (significant tokens).length ≤ limit) (hlines : ∀ t ∈ tokens, t.endLine < limit) :
    (cursorAt tokens i).step limit tokens =
      .ok (cursorAt tokens (nextPlace (significant tokens) i)) := by
  cases hparen : (significant tokens)[i].isSymbol "(" with
  | true => exact step_cursorAt_paren hi hlength hlines hparen
  | false => exact step_cursorAt_of_ne hi hlength hparen

/-! ## The whole search -/

theorem run_of_step {c next : Cursor} (hlt : c.index < (significant tokens).length)
    (hstep : c.step limit tokens = .ok next) : run limit tokens c = run limit tokens next := by
  rw [run, if_pos hlt]
  split
  · next next' h =>
    rw [hstep] at h
    cases h
    rfl
  · next fault h =>
    rw [hstep] at h
    cases h

theorem run_of_length_le {c : Cursor} (h : (significant tokens).length ≤ c.index) :
    run limit tokens c = .ok c.found := by
  rw [run, if_neg (Nat.not_lt_of_le h)]

/-- The search from a place on finds the functions. -/
theorem run_cursorAt (hi : i ≤ (significant tokens).length)
    (hlength : (significant tokens).length ≤ limit) (hlines : ∀ t ∈ tokens, t.endLine < limit) :
    run limit tokens (cursorAt tokens i) = .ok (FunctionRecord.extract tokens) := by
  -- The induction is on the tokens that are left, since a step may lead over several of them.
  induction hn : (significant tokens).length - i using Nat.strongRecOn generalizing i with
  | ind n ih =>
    rcases Nat.lt_or_eq_of_le hi with hlt | rfl
    · have hstep := step_cursorAt hlt hlength hlines
      have hforward : i < nextPlace (significant tokens) i := Cursor.index_lt_of_step hstep
      rw [run_of_step hlt hstep]
      exact ih _ (by omega) (nextPlace_le hlt) rfl
    · rw [run_of_length_le (Nat.le_refl _)]
      exact congrArg Except.ok (FunctionRecord.before_length tokens)

theorem Reached.eq_cursorAt {n : Nat} {c : Cursor}
    (hlength : (significant tokens).length ≤ limit) (hlines : ∀ t ∈ tokens, t.endLine < limit)
    (h : Reached limit tokens n c) :
    c = cursorAt tokens c.index ∧ n ≤ c.index ∧ c.index ≤ (significant tokens).length := by
  induction h with
  | start => exact ⟨rfl, Nat.le_refl 0, Nat.zero_le _⟩
  | @step n c next _ hlt hstep ih =>
    obtain ⟨hcursor, hn, -⟩ := ih
    have hforward := Cursor.index_lt_of_step hstep
    rw [hcursor, step_cursorAt hlt hlength hlines] at hstep
    cases hstep
    exact ⟨rfl, Nat.lt_of_le_of_lt hn hforward, nextPlace_le hlt⟩

/-- Whatever the tokens are, the search fails nowhere and finds the functions.  At each cursor that
it comes to, the statement starts no later than the next token.  Each step goes forward, so there
are no more steps than tokens.  A signature ends before the last token. -/
theorem extract_faultless (tokens : List Token) (limit : Nat) (hlength : tokens.length ≤ limit)
    (hlines : ∀ t ∈ tokens, t.endLine < limit) :
    extract limit tokens = .ok (FunctionRecord.extract tokens) ∧
    (∀ n c, Reached limit tokens n c →
      n ≤ c.index ∧ c.statementStart ≤ c.index ∧ c.index ≤ (significant tokens).length ∧
      (c.index < (significant tokens).length →
        ∃ next, c.step limit tokens = .ok next ∧ c.index < next.index)) ∧
    ∀ start opening s closing,
      candidate? limit (significant tokens) start opening = .ok (some (s, closing)) →
        opening ≤ closing ∧ closing + 1 < (significant tokens).length := by
  have hlength : (significant tokens).length ≤ limit :=
    Nat.le_trans (List.length_filter_le _ _) hlength
  refine ⟨run_cursorAt (Nat.zero_le _) hlength hlines, ?_, ?_⟩
  · intro n c hreached
    obtain ⟨hcursor, hn, hindex⟩ := hreached.eq_cursorAt hlength hlines
    refine ⟨hn, ?_, hindex, ?_⟩
    · rw [hcursor]
      exact statementStart_le (significant tokens) c.index
    · intro hlt
      have hstep := step_cursorAt hlt hlength hlines
      rw [← hcursor] at hstep
      exact ⟨_, hstep, Cursor.index_lt_of_step hstep⟩
  · exact fun _ _ _ _ => places_of_candidate?_eq_ok

/-- The greatest number of 64 bits. -/
def greatestWord : Nat := 18446744073709551615

/-- Tokens far down, with brackets and braces that match nothing. -/
def unbalanced : List Token :=
  [⟨.punctuation, ")", ⟨9007199254740992, 1⟩⟩, ⟨.punctuation, "\x7d", ⟨9007199254740992, 2⟩⟩,
    ⟨.lineComment, "// F.", ⟨9007199254740992, 3⟩⟩, ⟨.keyword, "int", ⟨9007199254740992, 4⟩⟩,
    ⟨.identifier, "f", ⟨9007199254740992, 5⟩⟩, ⟨.punctuation, "(", ⟨1, 1⟩⟩,
    ⟨.punctuation, "]", ⟨1, 2⟩⟩, ⟨.punctuation, "[", ⟨1, 3⟩⟩, ⟨.punctuation, ")", ⟨1, 4⟩⟩,
    ⟨.punctuation, ";", ⟨1, 5⟩⟩, ⟨.identifier, "x", ⟨1, 6⟩⟩, ⟨.punctuation, "(", ⟨1, 7⟩⟩,
    ⟨.punctuation, "\x7b", ⟨1, 8⟩⟩]

theorem extract_faultless_unbalanced :
    (unbalanced.length ≤ greatestWord ∧ ∀ t ∈ unbalanced, t.endLine < greatestWord) ∧
    extract greatestWord unbalanced = .ok (FunctionRecord.extract unbalanced) ∧
    (∀ n c, Reached greatestWord unbalanced n c →
      n ≤ c.index ∧ c.statementStart ≤ c.index ∧ c.index ≤ (significant unbalanced).length ∧
      (c.index < (significant unbalanced).length →
        ∃ next, c.step greatestWord unbalanced = .ok next ∧ c.index < next.index)) ∧
    ∀ start opening s closing,
      candidate? greatestWord (significant unbalanced) start opening = .ok (some (s, closing)) →
        opening ≤ closing ∧ closing + 1 < (significant unbalanced).length := by
  have hlength : unbalanced.length ≤ greatestWord := by decide
  have hlines : ∀ t ∈ unbalanced, t.endLine < greatestWord := by decide +kernel
  exact ⟨⟨hlength, hlines⟩, extract_faultless unbalanced greatestWord hlength hlines⟩

end

end Checked

end HeaderLint
