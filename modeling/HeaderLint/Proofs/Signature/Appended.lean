import HeaderLint.Proofs.DocComment.Nearest
import HeaderLint.Proofs.Signature.Walk
import HeaderLint.Proofs.Token.LineEnd

/-!
# Tokens behind the end

The walk looks ahead without bound: a candidate needs the parenthesis that closes it
and the token behind that.  So a candidate at the end of the tokens may become a
signature when more tokens follow (`Candidate.read?_of_append`).  But then no brace and
no semicolon stands behind its parenthesis, so no signature follows it, and the ones
before it are untouched: the signatures of some tokens are the first ones of all that
follow from more (`Scope.walk_isPrefix`).

`FunctionRecord.extract_isPrefix` says the same of functions, their documentation
included, for texts that end their line.
-/

namespace HeaderLint

/-! ## Candidates -/

theorem terminatorKind?_isBoundary {t : Token} {isDefinition : Bool}
    (h : terminatorKind? t = some isDefinition) : t.isBoundary = true := by
  obtain ⟨hopen | hsemi, -⟩ := terminatorKind?_eq_some_iff.mp h
  · rw [Token.isBoundary, hopen, Bool.true_or, Bool.true_or]
  · rw [Token.isBoundary, hsemi, Bool.or_true]

theorem ClosesAfter.append {depth : Nat} {ts inside : List Token}
    (h : ClosesAfter depth ts inside) (us : List Token) :
    ClosesAfter depth (ts ++ us) inside := by
  obtain ⟨henc, close, rest, rfl, hclose⟩ := h
  exact ⟨henc, close, rest ++ us, by simp, hclose⟩

namespace Candidate

variable {statement rest more : List Token} {c : Candidate}

/-- A signature ends with a brace or a semicolon. -/
theorem exists_isBoundary (h : read? statement rest = some c) :
    ∃ t ∈ rest, t.isBoundary = true := by
  obtain ⟨_, _, _, -, -, -, hterminator, -⟩ := read?_eq_some_iff.mp h
  obtain ⟨t, ht, hkind⟩ := Option.bind_eq_some_iff.mp hterminator
  exact ⟨t, List.mem_of_getElem? ht, terminatorKind?_isBoundary hkind⟩

/-- A candidate that is a signature stays the same when more follows. -/
theorem read?_append (h : read? statement rest = some c) (more : List Token) :
    read? statement (rest ++ more) = some c := by
  obtain ⟨name, head, isDefinition, rfl, hstarts, hcloses, hterminator, hsignature⟩ :=
    read?_eq_some_iff.mp h
  refine read?_eq_some_iff.mpr ⟨name, head, isDefinition, rfl, hstarts, hcloses.append more, ?_,
    hsignature⟩
  obtain ⟨t, ht, hkind⟩ := Option.bind_eq_some_iff.mp hterminator
  obtain ⟨hlt, -⟩ := List.getElem?_eq_some_iff.mp ht
  rw [List.getElem?_append_left hlt, ht, Option.bind_some, hkind]

/-- A candidate that is a signature because of what follows has no brace and no semicolon
before that. -/
theorem read?_of_append (h : read? statement (rest ++ more) = some c) :
    read? statement rest = some c ∨ ∀ t ∈ rest, t.isBoundary = false := by
  obtain ⟨name, head, isDefinition, rfl, hstarts, ⟨henc, close, tail, hcut, hclose⟩, hterminator,
    hsignature⟩ := read?_eq_some_iff.mp h
  have hplain : ∀ t ∈ c.inside ++ [close], t.isBoundary = false := by
    intro t ht
    rcases List.mem_append.mp ht with ht | ht
    · exact henc.plain t ht
    · rw [List.mem_singleton.mp ht]
      exact Token.isBoundary_of_isSymbol hclose (by decide)
  rw [← List.singleton_append, ← List.append_assoc] at hcut
  rcases List.append_eq_append_iff.mp hcut with ⟨extra, hinside, -⟩ | ⟨extra, rfl, rfl⟩
  · right
    intro t ht
    exact hplain t (hinside ▸ List.mem_append_left extra ht)
  · cases extra with
    | nil =>
      right
      rwa [List.append_nil]
    | cons next extra =>
      left
      refine read?_eq_some_iff.mpr ⟨name, head, isDefinition, rfl, hstarts,
        ⟨henc, close, next :: extra, by simp, hclose⟩, ?_, hsignature⟩
      have hplace : c.inside.length + 1 = (c.inside ++ [close]).length := by simp
      rw [List.append_assoc, hplace, List.getElem?_append_right (Nat.le_refl _), Nat.sub_self]
        at hterminator
      rw [hplace, List.getElem?_append_right (Nat.le_refl _), Nat.sub_self]
      exact hterminator

end Candidate

/-! ## The walk -/

namespace Scope

theorem candidate?_append {s : Scope} {t : Token} {ts : List Token} {c : Candidate}
    (h : s.candidate? t ts = some c) (us : List Token) : s.candidate? t (ts ++ us) = some c := by
  rw [candidate?] at h ⊢
  split at h
  · next hparen => rw [if_pos hparen, Candidate.read?_append h us]
  · cases h

theorem candidate?_of_append {s : Scope} {t : Token} {ts us : List Token} {c : Candidate}
    (h : s.candidate? t (ts ++ us) = some c) :
    s.candidate? t ts = some c ∨ ∀ t ∈ ts, t.isBoundary = false := by
  rw [candidate?] at h ⊢
  split at h
  · next hparen =>
    rw [if_pos hparen]
    exact Candidate.read?_of_append h
  · cases h

/-- Without a brace and a semicolon there is no signature. -/
theorem walk_of_forall_plain {s : Scope} {ts : List Token}
    (h : ∀ t ∈ ts, t.isBoundary = false) : s.walk ts = [] := by
  induction ts generalizing s with
  | nil => rfl
  | cons t ts ih =>
    obtain ⟨-, hts⟩ := List.forall_mem_cons.mp h
    have hnone : s.candidate? t ts = none := by
      rw [Option.eq_none_iff_forall_ne_some]
      intro c hc
      rw [candidate?] at hc
      split at hc
      · obtain ⟨u, hu, hboundary⟩ := Candidate.exists_isBoundary hc
        rw [hts u hu] at hboundary
        cases hboundary
      · cases hc
    rw [walk_of_step hnone rfl, ih hts]

/-- Tokens behind the end add signatures at the end and change none. -/
theorem walk_isPrefix (s : Scope) (ts us : List Token) : s.walk ts <+: s.walk (ts ++ us) := by
  induction ts generalizing s with
  | nil => exact List.nil_prefix
  | cons t ts ih =>
    rw [List.cons_append]
    cases hc : s.candidate? t ts with
    | some c =>
      rw [walk, walk, hc, candidate?_append hc us]
      exact (List.prefix_cons_inj _).mpr (ih (s.step t))
    | none =>
      rw [walk_of_step hc rfl]
      cases hall : s.candidate? t (ts ++ us) with
      | none =>
        rw [walk_of_step hall rfl]
        exact ih (s.step t)
      | some c =>
        -- The candidate reaches behind the end, so nothing else is found before the end.
        rcases candidate?_of_append hall with hsome | hplain
        · rw [hc] at hsome
          cases hsome
        · rw [walk_of_forall_plain hplain]
          exact List.nil_prefix

end Scope

theorem Signature.extract_append_isPrefix (ts us : List Token) :
    Signature.extract ts <+: Signature.extract (ts ++ us) := by
  rw [extract_eq_walk, extract_eq_walk, Token.significant_append]
  exact Scope.walk_isPrefix _ _ _

theorem Signature.extract_append_endOfFile (ts : List Token) (p : Position) :
    Signature.extract (ts ++ [⟨.endOfFile, "", p⟩]) = Signature.extract ts := by
  rw [extract, extract, Token.significant_append]
  exact congrArg _ (List.append_nil _)

/-! ## Functions -/

namespace FunctionRecord

open Token (scan scanFrom EndsLine lineFeeds)

/-- A text behind a line end changes no function before it, not even its documentation,
and adds functions behind them only. -/
theorem extract_isPrefix (a b : String) (h : EndsLine a) :
    extract (scan a) <+: extract (scan (a ++ b)) := by
  obtain ⟨above, habove⟩ : ∃ above, (scan a).dropLast = above := ⟨_, rfl⟩
  have hshort := h.scan_append_eq ""
  have hlong := h.scan_append_eq b
  have hline := h.line_le
  rw [habove] at hshort hlong hline
  rw [String.append_empty, String.toList_empty] at hshort
  -- No comment behind the line end starts before a name above it.
  have hdoc : ∀ cs, ∀ s ∈ Signature.extract above,
      s.withDocumentation (above ++ scanFrom (Position.start.down (lineFeeds a)) true cs) =
        s.withDocumentation above := by
    intro cs s hs
    obtain ⟨name, hname, -, -, hplace⟩ := Signature.exists_name_of_mem_extract hs
    refine s.withDocumentation_append ?_
    intro t ht
    refine Token.isCommentBefore_of_line_lt ?_
    rw [← hplace]
    exact Nat.lt_of_le_of_lt (hline name hname).1 (Token.lt_line_of_mem_scanFrom_down ht)
  have hprefix := (Signature.extract_append_isPrefix above
    (scanFrom (Position.start.down (lineFeeds a)) true b.toList)).map
      (·.withDocumentation (scan (a ++ b)))
  rw [← hlong] at hprefix
  have hrecords : extract (scan a) =
      (Signature.extract above).map (·.withDocumentation (scan (a ++ b))) := by
    rw [extract, hshort, hlong, Token.scanFrom_nil, Signature.extract_append_endOfFile,
      ← Token.scanFrom_nil _ true]
    exact List.map_congr_left fun s hs => (hdoc [] s hs).trans (hdoc b.toList s hs).symm
  rw [hrecords]
  exact hprefix

/-- A function without its end becomes one behind the function that stands before it. -/
theorem extract_isPrefix_unfinished :
    EndsLine "// A\nint f();\nint g(\n" ∧
      extract (scan "// A\nint f();\nint g(\n") <+:
        extract (scan ("// A\nint f();\nint g(\n" ++ "int);")) := by
  have h : EndsLine "// A\nint f();\nint g(\n" := by decide +kernel
  exact ⟨h, extract_isPrefix _ _ h⟩

end FunctionRecord

end HeaderLint
