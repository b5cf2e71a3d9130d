import HeaderLint.Signature.Extract

/-!
# Documentation comments

The comment that documents a place is the last comment of the tokens that starts
before it.  Line comments on consecutive lines are one comment: from the last one
the run goes back over line comments that each stand on the line directly above,
with nothing but line ends between them.

The comment documents a function if it ends at most three lines above the name.
-/

namespace HeaderLint

/-- The greatest distance between the last line of a comment and the line of the
name it documents. -/
def maxDocGap : Nat := 3

/-- A comment before a place. -/
structure DocComment where
  /-- The text, with a line feed between the lines of a run. -/
  text : String
  /-- The line where it starts. -/
  startLine : Nat
  /-- The line where it ends. -/
  endLine : Nat
deriving DecidableEq, Repr

namespace DocComment

/-- The comment ends close enough above a line to document it.  A comment that ends
below the line is close enough too. -/
def reaches (d : DocComment) (line : Nat) : Bool := decide (line - d.endLine ≤ maxDocGap)

/-- The line comments that continue a run upwards from a line, nearest first.  The
tokens are those before the run, latest first. -/
def runAbove (line : Nat) : List Token → List Token
  | [] => []
  | t :: ts =>
    if t.kind == .newline then runAbove line ts
    else if t.kind == .lineComment && t.line + 1 == line then t :: runAbove t.line ts
    else []

/-- The comment that ends with a comment token.  `above` are the tokens before it,
latest first. -/
def endingWith (last : Token) (above : List Token) : DocComment :=
  if last.kind == .blockComment then ⟨last.text, last.line, last.endLine⟩
  else
    let run := (last :: runAbove last.line above).reverse
    ⟨"\n".intercalate (run.map Token.text), (run.head?.getD last).line, last.line⟩

/-- The last comment that starts before a place. -/
def find? (tokens : List Token) (place : Position) : Option DocComment :=
  match tokens.reverse.dropWhile fun t => !(t.kind.isComment && t.position.before place) with
  | [] => none
  | last :: above => some (endingWith last above)

/-- The comment that documents a name at a place. -/
def documenting? (tokens : List Token) (place : Position) : Option DocComment :=
  (find? tokens place).filter fun d => d.reaches place.line

end DocComment

/-- The function of a signature, with its documentation among the tokens. -/
def Signature.withDocumentation (s : Signature) (tokens : List Token) : FunctionRecord :=
  { s with documentation := (DocComment.documenting? tokens s.position).map DocComment.text }

/-- The functions of a list of tokens with their documentation, in order. -/
def FunctionRecord.extract (tokens : List Token) : List FunctionRecord :=
  (Signature.extract tokens).map fun s => s.withDocumentation tokens

end HeaderLint
