import HeaderLint.Proofs.Checked.Parameters

/-!
# Candidates by place

A candidate is an opening parenthesis with the start of its statement, both as places.  The name
stands one place before the parenthesis, the head from the start up to the name, and the closing
parenthesis is found by counting the open ones.  The token behind it is looked up, since the
tokens may end there.

No access fails and the candidate is read as it is without places (`Checked.candidate?_eq`), if
the statement starts before the parenthesis.  The count of open parentheses is never zero at a
closing one, since the count starts at an opening one and ends when it comes back to zero.
-/

namespace HeaderLint

namespace Checked

variable (limit : Nat)

/-! ## The closing parenthesis -/

/-- How many tokens stand before the parenthesis that closes the first one. -/
def closingOffset? (offset depth : Nat) : List Token → Except Fault (Option Nat)
  | [] => return none
  | t :: ts =>
    if t.isSymbol "(" then do closingOffset? (offset + 1) (← sum limit depth 1) ts
    else if t.isSymbol ")" then do
      let depth ← less depth 1
      if depth == 0 then return some offset else closingOffset? (offset + 1) depth ts
    else if t.isSymbol "\x7b" || t.isSymbol "\x7d" || t.isSymbol ";" then return none
    else closingOffset? (offset + 1) depth ts

/-- The place of the parenthesis that closes the one at a place. -/
def closing? (ts : List Token) (opening : Nat) : Except Fault (Option Nat) := do
  match ← closingOffset? limit 0 0 (← range ts opening ts.length) with
  | some offset => return some (← sum limit opening offset)
  | none => return none

/-! ## The head -/

/-- A token of the head is a string behind `extern`. -/
def isLinkage (head : List Token) (i : Nat) (t : Token) : Except Fault Bool :=
  if t.kind == .stringLiteral && decide (0 < i) then do
    return (← item head (← less i 1)).isKeyword "extern"
  else return false

/-- The tokens of the return type in a head from a place on. -/
def returnTokensFrom? (head : List Token) (i : Nat) :
    List Token → Except Fault (Option (List Token))
  | [] => return some []
  | t :: ts => do
    if (← isLinkage head i t) || isStorageWord t then returnTokensFrom? head (i + 1) ts
    else if isTypeToken t then return (← returnTokensFrom? head (i + 1) ts).map (t :: ·)
    else return none

/-! ## The signature -/

/-- The signature with a name, a head and the parentheses around its parameters. -/
def signature? (ts : List Token) (name : Token) (head : List Token) (opening closing : Nat) :
    Except Fault (Option Signature) := do
  match ts[← sum limit closing 1]?.bind terminatorKind? with
  | none => return none
  | some isDefinition =>
    match ← returnTokensFrom? head 0 head with
    | none | some [] => return none
    | some (t :: type) =>
      let inside ← range ts (← sum limit opening 1) closing
      return some
        { name := name.text
          returnType := typeText (t :: type)
          parameters := ← parameters limit inside
          position := name.position
          isStatic := head.any (Token.isKeyword · "static")
          isDefinition := isDefinition }

/-- The signature around an opening parenthesis, with the place of the closing one. -/
def candidate? (ts : List Token) (start opening : Nat) :
    Except Fault (Option (Signature × Nat)) := do
  let name ← item ts (← less opening 1)
  if name.kind == .identifier then
    let head ← range ts start (← less opening 1)
    if head.isEmpty || head.head?.any isStatementWord then return none
    else
      match ← closing? limit ts opening with
      | none => return none
      | some closing =>
        return (← signature? limit ts name head opening closing).map fun s => (s, closing)
  else return none

variable {limit}

/-! ## Places -/

theorem le_of_closing?_eq_ok {ts : List Token} {opening closing : Nat}
    (h : closing? limit ts opening = .ok (some closing)) : opening ≤ closing := by
  rw [closing?] at h
  obtain ⟨_, -, h⟩ := exists_of_bind_eq_ok h
  obtain ⟨offset?, -, h⟩ := exists_of_bind_eq_ok h
  cases offset? with
  | none => cases h
  | some offset =>
    obtain ⟨place, hplace, h⟩ := exists_of_bind_eq_ok h
    cases h
    rw [eq_add_of_sum_eq_ok hplace]
    exact Nat.le_add_right _ _

theorem lt_of_signature?_eq_ok {ts head : List Token} {name : Token} {opening closing : Nat}
    {s : Signature} (h : signature? limit ts name head opening closing = .ok (some s)) :
    closing + 1 < ts.length := by
  rw [signature?] at h
  obtain ⟨place, hplace, h⟩ := exists_of_bind_eq_ok h
  rw [eq_add_of_sum_eq_ok hplace] at h
  by_contra hend
  rw [List.getElem?_eq_none (Nat.le_of_not_lt hend)] at h
  cases h

/-- The parenthesis that closes a signature stands no earlier than the one that opens it, and a
token stands behind it. -/
theorem places_of_candidate?_eq_ok {ts : List Token} {start opening closing : Nat} {s : Signature}
    (h : candidate? limit ts start opening = .ok (some (s, closing))) :
    opening ≤ closing ∧ closing + 1 < ts.length := by
  rw [candidate?] at h
  obtain ⟨_, -, h⟩ := exists_of_bind_eq_ok h
  obtain ⟨_, -, h⟩ := exists_of_bind_eq_ok h
  split at h
  · obtain ⟨_, -, h⟩ := exists_of_bind_eq_ok h
    obtain ⟨_, -, h⟩ := exists_of_bind_eq_ok h
    split at h
    · cases h
    · obtain ⟨place?, hplace, h⟩ := exists_of_bind_eq_ok h
      cases place? with
      | none => cases h
      | some place =>
        obtain ⟨found, hfound, h⟩ := exists_of_bind_eq_ok h
        obtain ⟨signature, rfl, heq⟩ := Option.map_eq_some_iff.mp (Except.ok.inj h)
        cases heq
        exact ⟨le_of_closing?_eq_ok hplace, lt_of_signature?_eq_ok hfound⟩
  · cases h

/-! ## What is found -/

/-- While a parenthesis is open the count is not zero. -/
theorem closingOffset?_eq {ts : List Token} {offset depth : Nat}
    (hlimit : depth + 1 + ts.length ≤ limit) :
    closingOffset? limit offset (depth + 1) ts =
      .ok ((insideParens? depth ts).map fun inside => offset + inside.length) := by
  induction ts generalizing offset depth with
  | nil => rfl
  | cons t ts ih =>
    rw [List.length_cons] at hlimit
    have hsum : sum limit (depth + 1) 1 = .ok (depth + 1 + 1) := sum_eq (by omega)
    have hless : less (depth + 1) 1 = .ok depth := less_eq (Nat.le_add_left 1 depth)
    have hshift : ∀ found : Option (List Token),
        (found.map (t :: ·)).map (fun inside => offset + inside.length) =
          found.map fun inside => offset + 1 + inside.length := by
      intro found
      rw [Option.map_map]
      refine congrArg (Option.map · found) (funext fun inside => ?_)
      exact (Nat.add_right_comm offset 1 inside.length).symm
    rw [closingOffset?, hsum, hless]
    unfold insideParens?
    split
    · rw [hshift]
      exact ih (by omega)
    · split
      -- At a closing parenthesis one of `depth + 1` is closed, so there is one to take away.
      · cases depth with
        | zero => rfl
        | succ depth =>
          rw [hshift]
          exact ih (by omega)
      · split
        · rfl
        · rw [hshift]
          exact ih (by omega)

section
variable {ts : List Token} {start opening : Nat}

/-- What stands between the parentheses, by place. -/
theorem slice_of_insideParens? {inside : List Token}
    (h : insideParens? 0 (ts.drop (opening + 1)) = some inside) :
    opening + 1 + inside.length < ts.length ∧
      slice ts (opening + 1) (opening + 1 + inside.length) = inside := by
  obtain ⟨-, hinside, hclose⟩ := closesAfter_drop_iff.mp (insideParens?_eq_some_iff.mp h)
  obtain ⟨close, hget, -⟩ := (Option.any_eq_true _ _).mp hclose
  exact ⟨(List.getElem?_eq_some_iff.mp hget).1, hinside⟩

theorem closing?_eq (hlt : opening < ts.length) (hopen : ts[opening].isSymbol "(" = true)
    (hlimit : ts.length ≤ limit) :
    closing? limit ts opening =
      .ok ((insideParens? 0 (ts.drop (opening + 1))).map fun inside =>
        opening + 1 + inside.length) := by
  have hrange : range ts opening ts.length = .ok (ts[opening] :: ts.drop (opening + 1)) := by
    rw [range_eq (Nat.le_of_lt hlt) (Nat.le_refl _), slice, List.take_length,
      List.drop_eq_getElem_cons hlt]
  have hone : sum limit 0 1 = .ok (0 + 1) := sum_eq (by omega)
  have hdrop : 0 + 1 + (ts.drop (opening + 1)).length ≤ limit := by
    rw [List.length_drop]
    omega
  rw [closing?, hrange, ok_bind, closingOffset?, if_pos hopen, hone, ok_bind,
    closingOffset?_eq hdrop, ok_bind]
  cases hinside : insideParens? 0 (ts.drop (opening + 1)) with
  | none => rfl
  | some inside =>
    have hclosing := (slice_of_insideParens? hinside).1
    have hsum : sum limit opening (0 + 1 + inside.length) =
        .ok (opening + 1 + inside.length) := by
      rw [sum_eq (by omega), Nat.zero_add, Nat.add_assoc]
    simp only [Option.map_some, hsum]
    rfl

/-- A count that starts at a closing parenthesis would go below zero. -/
example : closing? 10 [⟨.punctuation, ")", ⟨1, 1⟩⟩] 0 = .error .belowZero := rfl

theorem isLinkage_eq (before ts : List Token) (t : Token) :
    isLinkage (before ++ ts) before.length t =
      .ok (t.kind == .stringLiteral && before.getLast?.any (Token.isKeyword · "extern")) := by
  rw [isLinkage]
  cases t.kind == .stringLiteral with
  | false => rfl
  | true =>
    rcases List.eq_nil_or_concat before with rfl | ⟨before, previous, rfl⟩
    · rfl
    · rw [List.concat_eq_append, List.length_append, List.length_singleton, less_eq (by omega),
        Nat.add_sub_cancel, List.getLast?_concat, List.append_assoc, List.singleton_append,
        ok_bind, item_append_length]
      rfl

theorem returnTokensFrom?_append (before ts : List Token) :
    returnTokensFrom? (before ++ ts) before.length ts = .ok (returnTokens? before.getLast? ts) := by
  induction ts generalizing before with
  | nil => rfl
  | cons t ts ih =>
    have hrest := ih (before ++ [t])
    rw [← List.append_cons, List.length_append, List.length_singleton,
      List.getLast?_concat] at hrest
    rw [returnTokensFrom?, isLinkage_eq, ok_bind, hrest, returnTokens?]
    split
    · rfl
    · split <;> rfl

theorem returnTokensFrom?_eq (head : List Token) :
    returnTokensFrom? head 0 head = .ok (returnTokens? none head) :=
  returnTokensFrom?_append [] head

theorem signature?_eq {name : Token} {head inside : List Token}
    (hinside : insideParens? 0 (ts.drop (opening + 1)) = some inside) (hlimit : ts.length ≤ limit)
    (hname : (name.kind == .identifier) = true)
    (hword : head.head?.any isStatementWord = false) :
    signature? limit ts name head opening (opening + 1 + inside.length) =
      .ok ((Candidate.read? (name :: head.reverse) (ts.drop (opening + 1))).map
        Candidate.signature) := by
  obtain ⟨hclosing, hslice⟩ := slice_of_insideParens? hinside
  have hnext : sum limit (opening + 1 + inside.length) 1 =
      .ok (opening + 1 + inside.length + 1) := sum_eq (by omega)
  have hfirst : sum limit opening 1 = .ok (opening + 1) := sum_eq (by omega)
  have hrange : range ts (opening + 1) (opening + 1 + inside.length) = .ok inside := by
    rw [range_eq (Nat.le_add_right _ _) (Nat.le_of_lt hclosing), hslice]
  have hparameters : parameters limit inside = .ok (HeaderLint.parameters inside) :=
    parameters_eq (by omega)
  have hlookup : ((ts.drop (opening + 1)).drop (inside.length + 1)).head? =
      ts[opening + 1 + inside.length + 1]? := by
    rw [List.head?_drop, List.getElem?_drop]
    rfl
  simp only [signature?, hnext, returnTokensFrom?_eq, hfirst, hrange, hparameters, ok_bind]
  rw [Candidate.read?, List.reverse_reverse, hname, hword, hinside]
  cases returnTokens? none head with
  | none => cases ts[opening + 1 + inside.length + 1]?.bind terminatorKind? <;> rfl
  | some type =>
    cases type with
    | nil => cases ts[opening + 1 + inside.length + 1]?.bind terminatorKind? <;> rfl
    | cons t type =>
      simp only [hlookup]
      cases ts[opening + 1 + inside.length + 1]?.bind terminatorKind? <;> rfl

theorem inside_of_read? {statement rest : List Token} {c : Candidate}
    (h : Candidate.read? statement rest = some c) : insideParens? 0 rest = some c.inside := by
  obtain ⟨_, _, _, -, -, hcloses, -⟩ := Candidate.read?_eq_some_iff.mp h
  exact insideParens?_eq_some_iff.mpr hcloses

/-- No access fails at an opening parenthesis behind the start of the statement, and the candidate
is read. -/
theorem candidate?_eq (hstart : start < opening) (hlt : opening < ts.length)
    (hopen : ts[opening].isSymbol "(" = true) (hlimit : ts.length ≤ limit) :
    candidate? limit ts start opening =
      .ok ((Candidate.read? (slice ts start opening).reverse (ts.drop (opening + 1))).map fun c =>
        (c.signature, opening + 1 + c.inside.length)) := by
  obtain ⟨place, rfl⟩ : ∃ place, opening = place + 1 := ⟨opening - 1, by omega⟩
  have hplace : place < ts.length := by omega
  have hless : less (place + 1) 1 = .ok place := less_eq (Nat.le_add_left 1 place)
  have hhead : range ts start place = .ok (slice ts start place) :=
    range_eq (Nat.le_of_lt_succ hstart) (Nat.le_of_lt hplace)
  rw [candidate?, hless, ok_bind, item_eq hplace, ok_bind, ok_bind, hhead, ok_bind,
    closing?_eq hlt hopen hlimit, ok_bind, slice_succ (Nat.le_of_lt_succ hstart) hplace,
    List.reverse_concat]
  generalize slice ts start place = head
  cases hname : ts[place].kind == .identifier with
  | false =>
    rw [Candidate.read?, hname]
    rfl
  | true =>
    cases hword : head.head?.any isStatementWord with
    | true =>
      rw [Candidate.read?, List.reverse_reverse, hname, hword, Bool.or_true]
      rfl
    | false =>
      cases hinside : insideParens? 0 (ts.drop (place + 1 + 1)) with
      | none =>
        rw [Candidate.read?, List.reverse_reverse, hname, hword, hinside, Bool.or_false]
        cases head.isEmpty <;> rfl
      | some inside =>
        simp only [Option.map_some, signature?_eq hinside hlimit hname hword]
        cases hread : Candidate.read? (ts[place] :: head.reverse) (ts.drop (place + 1 + 1)) with
        | none => cases head <;> rfl
        | some c =>
          obtain rfl : inside = c.inside :=
            Option.some_inj.mp (hinside.symm.trans (inside_of_read? hread))
          cases head with
          | nil =>
            rw [Candidate.read?, hname, hinside] at hread
            cases hread
          | cons first head => rfl

/-- No place stands before the first token. -/
example : candidate? 10 [⟨.punctuation, "(", ⟨1, 1⟩⟩] 0 0 = .error .belowZero := rfl

end

end Checked

end HeaderLint
