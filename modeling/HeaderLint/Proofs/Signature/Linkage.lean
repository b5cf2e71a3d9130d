import HeaderLint.Proofs.Signature.Body
import HeaderLint.Proofs.Signature.Complete

/-!
# Linkage blocks are transparent

A linkage block leaves what it encloses at top level, so the functions in it are found as if the
block were not there.  Two facts carry this.

* Further open braces around a scope matter to no token but a closing brace that has nothing else
  to close (`Scope.step_within`), as long as none of them opens a block.  So tokens whose braces
  are balanced are walked over alike inside a linkage block and outside
  (`Scope.walk_within`).
* Tokens that end with a semicolon or a closing brace leave no statement behind
  (`Scope.run_start_of_endsClosed`).  So does the end of a linkage block.

`FunctionRecord.extract_linkage` puts them together, for a block that stands where a statement
starts, inside of other linkage blocks or not.
-/

namespace HeaderLint

/-- The last token is a semicolon or a closing brace, if there is one. -/
def EndsClosed (ts : List Token) : Prop :=
  ∀ t ∈ ts.getLast?, t.isSymbol ";" = true ∨ t.isSymbol "\x7d" = true

instance (ts : List Token) : Decidable (EndsClosed ts) :=
  inferInstanceAs (Decidable (∀ t ∈ ts.getLast?, _))

namespace Scope

/-! ## Further open braces -/

/-- The scope inside further open braces. -/
def within (s : Scope) (outer : List Brace) : Scope := ⟨s.braces ++ outer, s.statement⟩

variable {s : Scope} {outer : List Brace} {t : Token} {ts : List Token}

theorem isTopLevel_append (houter : isTopLevel outer = true) (braces : List Brace) :
    isTopLevel (braces ++ outer) = isTopLevel braces := by
  simp only [isTopLevel, Bool.not_eq_true', List.contains_eq_mem, decide_eq_false_iff_not] at houter
  simp [isTopLevel, houter]

theorem candidate?_within (houter : isTopLevel outer = true) (t : Token) (rest : List Token) :
    (s.within outer).candidate? t rest = s.candidate? t rest := by
  rw [candidate?, candidate?, within, isTopLevel_append houter]

/-- Further braces stay open unless a closing brace has nothing else to close. -/
theorem step_within (houter : isTopLevel outer = true)
    (hclose : t.isSymbol "\x7d" = true → s.braces ≠ []) :
    (s.within outer).step t = (s.step t).within outer := by
  simp only [step, within, extend, isTopLevel_append houter]
  split
  · split <;> rfl
  · split
    · next hbrace =>
      simp only [List.tail_append_of_ne_nil (hclose hbrace), isTopLevel_append houter]
      split <;> rfl
    · split <;> rfl

theorem length_braces_step (s : Scope) (t : Token) :
    (s.step t).braces.length =
      if t.isSymbol "\x7b" then s.braces.length + 1
      else if t.isSymbol "\x7d" then s.braces.length - 1 else s.braces.length := by
  simp only [step, extend]
  split
  · split <;> rfl
  · split
    · split <;> exact List.length_tail
    · split <;> rfl

/-- As many braces are open as the tokens that follow have to close. -/
theorem closesBraces_step (h : ClosesBraces s.braces.length (t :: ts)) :
    ClosesBraces (s.step t).braces.length ts := by
  refine h.of_cons ?_
  rw [length_braces_step]
  cases hopen : t.isSymbol "\x7b" with
  | true =>
    have hclose : t.isSymbol "\x7d" = false := Token.isSymbol_of_ne hopen (by decide)
    simp [hclose]
  | false =>
    cases hclose : t.isSymbol "\x7d" with
    | true =>
      have hdepth := h.depth_ne_zero hclose
      simp only [if_true, Bool.false_eq_true, if_false]
      omega
    | false => simp

/-- Tokens that close what is open leave nothing open. -/
theorem braces_run (h : ClosesBraces s.braces.length ts) : (s.run ts).braces = [] := by
  induction ts generalizing s with
  | nil => simpa [eq_comm] using h.closes
  | cons t ts ih => exact ih (closesBraces_step h)

/-- Tokens that close what is open, and nothing else, are walked over alike inside further
braces. -/
theorem walk_within (houter : isTopLevel outer = true) (h : ClosesBraces s.braces.length ts) :
    (s.within outer).walk ts = s.walk ts ∧ (s.within outer).run ts = (s.run ts).within outer := by
  induction ts generalizing s with
  | nil => exact ⟨rfl, rfl⟩
  | cons t ts ih =>
    have hclose : t.isSymbol "\x7d" = true → s.braces ≠ [] := by
      intro ht hnil
      exact h.depth_ne_zero ht (by rw [hnil, List.length_nil])
    obtain ⟨hwalk, hrun⟩ := ih (closesBraces_step h)
    rw [walk, walk, run_cons, run_cons, candidate?_within houter, step_within houter hclose, hwalk]
    exact ⟨rfl, hrun⟩

/-! ## No statement left -/

/-- A semicolon or a closing brace at top level ends the statement. -/
theorem statement_step (ht : t.isSymbol ";" = true ∨ t.isSymbol "\x7d" = true)
    (htop : isTopLevel (s.step t).braces = true) : (s.step t).statement = [] := by
  rcases ht with hsemi | hclose
  · have hopen : t.isSymbol "\x7b" = false := Token.isSymbol_of_ne hsemi (by decide)
    have hclose : t.isSymbol "\x7d" = false := Token.isSymbol_of_ne hsemi (by decide)
    simp only [step, extend, hopen, hclose, hsemi, Bool.true_and, Bool.false_eq_true, if_false]
      at htop ⊢
    split at htop
    · next h => rw [if_pos h]
    · next h => exact absurd htop h
  · have hopen : t.isSymbol "\x7b" = false := Token.isSymbol_of_ne hclose (by decide)
    simp only [step, extend, hopen, hclose, if_true, Bool.false_eq_true, if_false] at htop ⊢
    split at htop
    · next h => rw [if_pos h]
    · next h => exact absurd htop h

/-- Balanced tokens that end with a semicolon or a closing brace leave nothing behind. -/
theorem run_start_of_endsClosed (h : ClosesBraces 0 ts) (hends : EndsClosed ts) :
    start.run ts = start := by
  have hbraces : (start.run ts).braces = [] := braces_run h
  rcases List.eq_nil_or_concat' ts with rfl | ⟨front, t, rfl⟩
  · rfl
  · have hlast : start.run (front ++ [t]) = (start.run front).step t := run_append start front [t]
    rw [hlast] at hbraces ⊢
    have hstatement := statement_step (hends t List.getLast?_concat) (by rw [hbraces]; rfl)
    generalize (start.run front).step t = s at hbraces hstatement
    obtain ⟨braces, statement⟩ := s
    cases hbraces
    cases hstatement
    rfl

/-- Balanced tokens that end with a semicolon or a closing brace are walked over at top level as
if they stood alone, and the statement behind them is as new as the one before. -/
theorem walk_enclosed (houter : isTopLevel outer = true) (h : ClosesBraces 0 ts)
    (hends : EndsClosed ts) (rest : List Token) :
    (⟨outer, []⟩ : Scope).walk (ts ++ rest) =
      start.walk ts ++ (⟨outer, []⟩ : Scope).walk rest := by
  have hlast : ∀ t ∈ ts.getLast?, t.isBoundary = true := by
    intro t ht
    rcases hends t ht with hsemi | hclose
    · rw [Token.isBoundary, hsemi, Bool.or_true]
    · rw [Token.isBoundary, hclose, Bool.or_true, Bool.true_or]
  obtain ⟨hwalk, hrun⟩ := walk_within (s := start) houter h
  rw [run_start_of_endsClosed h hends] at hrun
  have hcut := walk_append (start.within outer) hlast rest
  rw [hwalk, hrun] at hcut
  exact hcut

/-! ## The ends of a linkage block -/

theorem walk_openLinkage (houter : isTopLevel outer = true) {word string opening : Token}
    (hword : word.isKeyword "extern" = true) (hstring : string.kind = .stringLiteral)
    (hopen : opening.isSymbol "\x7b" = true) (rest : List Token) :
    (⟨outer, []⟩ : Scope).walk (word :: string :: opening :: rest) =
      (⟨.linkage :: outer, []⟩ : Scope).walk rest := by
  have hflat : ∀ t ∈ [word, string], IsFlat t := by
    rintro t (_ | ⟨_, _ | ⟨_, ⟨⟩⟩⟩)
    · exact isFlat_of_isKeyword hword
    · exact isFlat_of_kind hstring (by decide)
  have hwalk := walk_flat (s := ⟨outer, []⟩) hflat (opening :: rest)
  refine hwalk.trans (walk_of_step (candidate?_of_ne (Token.isSymbol_of_ne hopen (by decide))) ?_)
  simp [step, endsWithLinkage, hopen, houter, hstring, hword]

theorem walk_closeLinkage (houter : isTopLevel outer = true) {closing : Token}
    (hclose : closing.isSymbol "\x7d" = true) (rest : List Token) :
    (⟨.linkage :: outer, []⟩ : Scope).walk (closing :: rest) =
      (⟨outer, []⟩ : Scope).walk rest := by
  have hopen : closing.isSymbol "\x7b" = false := Token.isSymbol_of_ne hclose (by decide)
  refine walk_of_step (candidate?_of_ne (Token.isSymbol_of_ne hclose (by decide))) ?_
  simp [step, hopen, hclose, houter]

end Scope

namespace FunctionRecord

open Token (significant scan)

/-- A linkage block where a statement starts gives the functions that its content would give
without it, but for their documentation. -/
theorem extract_linkage (pre inner post : List Token) (word string opening closing : Token)
    (hword : word.isKeyword "extern" = true) (hstring : string.kind = .stringLiteral)
    (hopen : opening.isSymbol "\x7b" = true) (hclose : closing.isSymbol "\x7d" = true)
    (hpre : StartsStatement pre) (hinner : ClosesBraces 0 inner)
    (hends : EndsClosed (significant inner)) :
    (extract (pre ++ [word, string, opening] ++ inner ++ [closing] ++ post)).map toSignature =
      (extract (pre ++ inner ++ post)).map toSignature := by
  obtain ⟨outer, houter, hrun⟩ := hpre.run_eq
  have hwordKind : word.kind.isSignificant = true := by
    rw [beq_iff_eq.mp (Bool.and_eq_true_iff.mp hword).1]
    rfl
  have hstringKind : string.kind.isSignificant = true := by
    rw [hstring]
    rfl
  have hcode : significant (pre ++ [word, string, opening] ++ inner ++ [closing] ++ post) =
      significant pre ++
        word :: string :: opening :: (significant inner ++ closing :: significant post) := by
    simp only [List.append_assoc, List.cons_append, List.nil_append, Token.significant_append,
      Token.significant_cons hwordKind, Token.significant_cons hstringKind,
      Token.significant_cons (Token.isSignificant_of_isSymbol hopen),
      Token.significant_cons (Token.isSignificant_of_isSymbol hclose)]
  have hlinkage : isTopLevel (.linkage :: outer) = true := by rwa [isTopLevel_linkage]
  rw [map_toSignature_extract, map_toSignature_extract, Signature.extract_eq_walk,
    Signature.extract_eq_walk, hcode, List.append_assoc pre, Token.significant_append,
    Token.significant_append, Scope.walk_append _ hpre.isBoundary_getLast?,
    Scope.walk_append _ hpre.isBoundary_getLast?, hrun]
  congr 1
  calc (⟨outer, []⟩ : Scope).walk
        (word :: string :: opening :: (significant inner ++ closing :: significant post))
      = (⟨.linkage :: outer, []⟩ : Scope).walk
          (significant inner ++ closing :: significant post) :=
        Scope.walk_openLinkage houter hword hstring hopen _
    _ = Scope.start.walk (significant inner) ++
          (⟨.linkage :: outer, []⟩ : Scope).walk (closing :: significant post) :=
        Scope.walk_enclosed hlinkage hinner.significant hends _
    _ = Scope.start.walk (significant inner) ++
          (⟨outer, []⟩ : Scope).walk (significant post) := by
        rw [Scope.walk_closeLinkage houter hclose]
    _ = (⟨outer, []⟩ : Scope).walk (significant inner ++ significant post) :=
        (Scope.walk_enclosed houter hinner.significant hends _).symm

/-- A linkage block in another one, around a declaration and a structure, with closing braces
behind it that close nothing. -/
theorem extract_linkage_nested :
    (⟨.keyword, "extern", ⟨2, 1⟩⟩ : Token).isKeyword "extern" = true ∧
      (⟨.stringLiteral, "\"C\"", ⟨2, 8⟩⟩ : Token).kind = .stringLiteral ∧
      (⟨.punctuation, "\x7b", ⟨2, 12⟩⟩ : Token).isSymbol "\x7b" = true ∧
      (⟨.punctuation, "\x7d", ⟨5, 1⟩⟩ : Token).isSymbol "\x7d" = true ∧
      StartsStatement (scan "extern \"C\" \x7b // C") ∧
      ClosesBraces 0 (scan "int f(void);\nstruct s \x7b int a; \x7d;\n") ∧
      EndsClosed (significant (scan "int f(void);\nstruct s \x7b int a; \x7d;\n")) ∧
      (extract (scan "extern \"C\" \x7b // C" ++
          [⟨.keyword, "extern", ⟨2, 1⟩⟩, ⟨.stringLiteral, "\"C\"", ⟨2, 8⟩⟩,
            ⟨.punctuation, "\x7b", ⟨2, 12⟩⟩] ++
          scan "int f(void);\nstruct s \x7b int a; \x7d;\n" ++
          [⟨.punctuation, "\x7d", ⟨5, 1⟩⟩] ++
          scan "int g(void); \x7d \x7d\nint h(void);\n")).map toSignature =
        (extract (scan "extern \"C\" \x7b // C" ++
          scan "int f(void);\nstruct s \x7b int a; \x7d;\n" ++
          scan "int g(void); \x7d \x7d\nint h(void);\n")).map toSignature := by
  have hpre : StartsStatement (scan "extern \"C\" \x7b // C") := by decide +kernel
  have hinner : ClosesBraces 0 (scan "int f(void);\nstruct s \x7b int a; \x7d;\n") := by
    decide +kernel
  have hends : EndsClosed (significant (scan "int f(void);\nstruct s \x7b int a; \x7d;\n")) := by
    decide +kernel
  exact ⟨rfl, rfl, rfl, rfl, hpre, hinner, hends,
    extract_linkage _ _ _ _ _ _ _ rfl rfl rfl rfl hpre hinner hends⟩

end FunctionRecord

end HeaderLint
