import HeaderLint.Proofs.Signature.Walk
import HeaderLint.Proofs.Token.Moved

/-!
# Signatures of moved tokens

Where a token stands plays no part in what is a signature.  When tokens are moved,
every function on the way from tokens to signatures finds the same, moved likewise, and
texts stay as they are.  So the signatures of moved tokens are the signatures of the
tokens with their places moved (`Signature.extract_map_moved`).
-/

namespace HeaderLint

open Token (moved)

variable (f : Position → Position)

/-! ## Heads and parentheses -/

section
variable (t : Token)

@[simp] theorem isStorageWord_moved : isStorageWord (t.moved f) = isStorageWord t := rfl

@[simp] theorem isTypeToken_moved : isTypeToken (t.moved f) = isTypeToken t := rfl

@[simp] theorem bracketDepth_moved (depth : Nat) :
    bracketDepth depth (t.moved f) = bracketDepth depth t := rfl

@[simp] theorem announcesTag_moved : announcesTag (t.moved f) = announcesTag t := rfl

end

theorem returnTokens?_map_moved (previous : Option Token) (ts : List Token) :
    returnTokens? (previous.map (moved f)) (ts.map (moved f)) =
      (returnTokens? previous ts).map (List.map (moved f)) := by
  induction ts generalizing previous with
  | nil => rfl
  | cons t ts ih =>
    have hsome : returnTokens? (some (t.moved f)) (ts.map (moved f)) =
        (returnTokens? (some t) ts).map (List.map (moved f)) := ih (some t)
    have hany : (previous.map (moved f)).any (Token.isKeyword · "extern") =
        previous.any (Token.isKeyword · "extern") := by
      cases previous <;> rfl
    simp only [List.map_cons, returnTokens?, hany, hsome, Token.kind_moved, isStorageWord_moved,
      isTypeToken_moved]
    split
    · rfl
    · split
      · simp only [Option.map_map]
        rfl
      · rfl

theorem insideParens?_map_moved (depth : Nat) (ts : List Token) :
    insideParens? depth (ts.map (moved f)) =
      (insideParens? depth ts).map (List.map (moved f)) := by
  have hcons : ∀ (t : Token) (o : Option (List Token)),
      (o.map (List.map (moved f))).map (t.moved f :: ·) =
        (o.map (t :: ·)).map (List.map (moved f)) := by
    intro t o
    cases o <;> rfl
  induction ts generalizing depth with
  | nil => rfl
  | cons t ts ih =>
    simp only [List.map_cons, insideParens?, Token.isSymbol_moved, ih, hcons]
    split
    · rfl
    · split
      · cases depth <;> rfl
      · split <;> rfl

/-! ## Parameters -/

theorem typeText_map_moved (ts : List Token) : typeText (ts.map (moved f)) = typeText ts := by
  rw [typeText, typeText, List.map_map]
  rfl

theorem splitParts_map_moved (depth : Nat) (ts : List Token) :
    splitParts depth (ts.map (moved f)) =
      ((splitParts depth ts).1.map (moved f),
        (splitParts depth ts).2.map (List.map (moved f))) := by
  induction ts generalizing depth with
  | nil => rfl
  | cons t ts ih =>
    simp only [List.map_cons, splitParts, Token.isSymbol_moved, bracketDepth_moved, ih]
    split <;> rfl

theorem parameterParts_map_moved (ts : List Token) :
    parameterParts (ts.map (moved f)) = (parameterParts ts).map (List.map (moved f)) := by
  have hempty : ∀ part : Option (List Token),
      part.map (List.map (moved f)) = some [] ↔ part = some [] := by
    intro part
    cases part <;> simp
  simp only [parameterParts, splitParts_map_moved, ← List.map_cons, List.getLast?_map, hempty]
  split
  · rw [List.map_dropLast]
  · rfl

/-- The pieces of a part that is split at its name, moved. -/
def movedPieces : List Token × Token × List Token → List Token × Token × List Token
  | (left, name, right) => (left.map (moved f), name.moved f, right.map (moved f))

theorem splitFunctionPointer?_map_moved (part : List Token) :
    splitFunctionPointer? (part.map (moved f)) =
      (splitFunctionPointer? part).map (movedPieces f) := by
  fun_induction splitFunctionPointer? part with
  | case1 a b c ts h =>
    rw [List.map_cons, List.map_cons, List.map_cons, splitFunctionPointer?, Token.isSymbol_moved,
      Token.isSymbol_moved, Token.kind_moved, if_pos h]
    rfl
  | case2 a b c ts h ih =>
    rw [List.map_cons, List.map_cons, List.map_cons, splitFunctionPointer?, Token.isSymbol_moved,
      Token.isSymbol_moved, Token.kind_moved, if_neg h]
    rw [List.map_cons, List.map_cons] at ih
    rw [ih, Option.map_map, Option.map_map]
    rfl
  | case3 part h =>
    match part with
    | [] | [_] | [_, _] => rfl
    | a :: b :: c :: ts => exact absurd rfl (h a b c ts)

theorem splitArray?_map_moved (part : List Token) :
    splitArray? (part.map (moved f)) = (splitArray? part).map (movedPieces f) := by
  have hcomp : (fun t : Token => !t.isSymbol "[") ∘ moved f = fun t => !t.isSymbol "[" := rfl
  simp only [splitArray?, List.takeWhile_map, List.dropWhile_map, hcomp, List.getLast?_map,
    List.length_map, List.isEmpty_map]
  cases (part.takeWhile fun t => !t.isSymbol "[").getLast? with
  | none => rfl
  | some name =>
    simp only [Option.map_some, ← List.map_dropLast]
    rw [Token.kind_moved]
    split <;> rfl

theorem splitPlain?_map_moved (part : List Token) :
    splitPlain? (part.map (moved f)) = (splitPlain? part).map (movedPieces f) := by
  simp only [splitPlain?, ← List.map_dropLast, List.getLast?_map]
  cases part.getLast? with
  | none => rfl
  | some name =>
    cases part.dropLast.getLast? with
    | none => rfl
    | some previous =>
      simp only [Option.map_some]
      rw [Token.kind_moved, announcesTag_moved]
      split <;> rfl

theorem parameter_map_moved (part : List Token) :
    parameter (part.map (moved f)) = parameter part := by
  have horElse : ∀ o o' : Option (List Token × Token × List Token),
      (o.map (movedPieces f) <|> o'.map (movedPieces f)) = (o <|> o').map (movedPieces f) := by
    intro o o'
    cases o <;> rfl
  rw [parameter, parameter, splitFunctionPointer?_map_moved, splitArray?_map_moved,
    splitPlain?_map_moved, horElse, horElse]
  cases splitFunctionPointer? part <|> splitArray? part <|> splitPlain? part with
  | none => rw [Option.map_none, typeText_map_moved]
  | some pieces =>
    obtain ⟨left, name, right⟩ := pieces
    simp only [Option.map_some, movedPieces, ← List.map_append, typeText_map_moved,
      Token.text_moved]

theorem parameters_map_moved (ts : List Token) :
    parameters (ts.map (moved f)) = parameters ts := by
  have hvoid : ∀ parts : List (List Token),
      isVoidList (parts.map (List.map (moved f))) = isVoidList parts := by
    intro parts
    match parts with
    | [] | [[]] | [[_]] | [_ :: _ :: _] | [] :: _ :: _ | [_] :: _ :: _ | (_ :: _ :: _) :: _ :: _ =>
      rfl
  have hempty : (fun part : List Token => !part.isEmpty) ∘ List.map (moved f) =
      fun part => !part.isEmpty := by
    funext part
    cases part <;> rfl
  have hparameter : parameter ∘ List.map (moved f) = parameter :=
    funext (parameter_map_moved f)
  simp only [parameters, parameterParts_map_moved, hvoid, List.filter_map, hempty, List.map_map,
    hparameter]

/-! ## Candidates and the walk -/

/-- The signature at another place. -/
def Signature.moved (s : Signature) : Signature := { s with position := f s.position }

/-- The candidate at another place. -/
def Candidate.moved (c : Candidate) : Candidate :=
  ⟨c.signature.moved f, c.inside.map (Token.moved f)⟩

theorem Candidate.read?_map_moved (statement rest : List Token) :
    Candidate.read? (statement.map (Token.moved f)) (rest.map (Token.moved f)) =
      (Candidate.read? statement rest).map (Candidate.moved f) := by
  cases statement with
  | nil => rfl
  | cons name headRev =>
    have hreturn := returnTokens?_map_moved f none headRev.reverse
    rw [Option.map_none] at hreturn
    have hhead : (headRev.reverse.map (Token.moved f)).head?.any isStatementWord =
        headRev.reverse.head?.any isStatementWord := by
      rw [List.head?_map]
      cases headRev.reverse.head? <;> rfl
    have hterminator : ∀ n, ((rest.map (Token.moved f)).drop n).head?.bind terminatorKind? =
        (rest.drop n).head?.bind terminatorKind? := by
      intro n
      rw [← List.map_drop, List.head?_map]
      cases (rest.drop n).head? <;> rfl
    have hstatic : (headRev.reverse.map (Token.moved f)).any (Token.isKeyword · "static") =
        headRev.reverse.any (Token.isKeyword · "static") := by
      rw [List.any_map]
      rfl
    simp only [List.map_cons, read?, ← List.map_reverse, hreturn, hhead, hterminator, hstatic,
      insideParens?_map_moved]
    rw [Token.kind_moved]
    split
    · cases insideParens? 0 rest with
      | none => rfl
      | some inside =>
        cases returnTokens? none headRev.reverse with
        | none => rfl
        | some kept =>
          cases kept with
          | nil => rfl
          | cons t ts =>
            simp only [Option.map_some, List.map_cons, List.length_map, parameters_map_moved]
            rw [← List.map_cons, typeText_map_moved, Option.map_map]
            rfl
    · rfl

/-- The scope with its statement moved. -/
def Scope.moved (s : Scope) : Scope := { s with statement := s.statement.map (Token.moved f) }

namespace Scope

theorem braces_moved (s : Scope) : (s.moved f).braces = s.braces := rfl

theorem endsWithLinkage_statement_moved (s : Scope) :
    endsWithLinkage (s.moved f).statement = endsWithLinkage s.statement := by
  rw [Scope.moved]
  match s.statement with
  | [] | [_] | _ :: _ :: _ => rfl

theorem step_moved (s : Scope) (t : Token) : (s.moved f).step (t.moved f) = (s.step t).moved f := by
  rw [step, step, Token.isSymbol_moved, Token.isSymbol_moved, Token.isSymbol_moved, braces_moved,
    endsWithLinkage_statement_moved]
  split
  · split <;> rfl
  · split
    · split <;> rfl
    · split <;> rfl

theorem candidate?_moved (s : Scope) (t : Token) (rest : List Token) :
    (s.moved f).candidate? (t.moved f) (rest.map (Token.moved f)) =
      (s.candidate? t rest).map (Candidate.moved f) := by
  simp only [candidate?, Scope.moved, Token.isSymbol_moved, Candidate.read?_map_moved]
  split <;> rfl

theorem walk_moved (s : Scope) (ts : List Token) :
    (s.moved f).walk (ts.map (Token.moved f)) = (s.walk ts).map (Signature.moved f) := by
  induction ts generalizing s with
  | nil => rfl
  | cons t ts ih =>
    rw [List.map_cons, walk, walk, candidate?_moved, step_moved, ih, List.map_append]
    cases s.candidate? t ts <;> rfl

end Scope

/-- Moved tokens have the same signatures at moved places. -/
theorem Signature.extract_map_moved (tokens : List Token) :
    extract (tokens.map (Token.moved f)) = (extract tokens).map (Signature.moved f) := by
  rw [extract_eq_walk, extract_eq_walk, Token.significant_map_moved]
  exact Scope.start.walk_moved f _

end HeaderLint
