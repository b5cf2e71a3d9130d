import HeaderLint.Signature.Parameters

/-!
# Finding signatures

`Signature.extract` walks the tokens that carry structure and finds every
`type name(parameters)` at top level that an opening brace or a semicolon follows directly.
Whatever does not fit is passed over: the walk rather misses a function than
invents one.

The walk keeps two things.

* The open braces.  A brace after `extern` and a string opens a linkage block,
  whose content is still at top level.  Any other brace opens a block, whose
  content is not.  A closing brace without a partner closes nothing.
* The statement so far, latest token first.  A statement starts anew after a
  semicolon at top level, after the opening brace of a linkage block, and after a
  closing brace that leaves no block open.

At a parenthesis at top level the statement is the candidate.  Its last token is
the name.  What stands before the name is the head, made of storage words, the
string after `extern` and the tokens of the return type, of which there is at least
one.  A head that starts with a word such as `typedef` or `return` is none.  The
parameters end with the matching parenthesis, and no brace or semicolon stands
among them.
-/

namespace HeaderLint

/-! ## Words of a head -/

/-- Words that are no part of the return type. -/
def storageWords : List String := ["static", "extern", "inline", "__inline", "__inline__"]

/-- Keywords that start no signature. -/
def statementWords : List String :=
  ["typedef", "return", "if", "else", "while", "for", "do", "switch", "case", "default", "goto",
   "break", "continue", "sizeof"]

/-- The token is a storage word. -/
def isStorageWord (t : Token) : Bool :=
  (t.kind == .keyword || t.kind == .identifier) && storageWords.contains t.text

/-- The token is a keyword that starts no signature. -/
def isStatementWord (t : Token) : Bool := t.kind == .keyword && statementWords.contains t.text

/-- The token may be part of a return type. -/
def isTypeToken (t : Token) : Bool :=
  t.kind == .keyword || t.kind == .identifier ||
    (t.kind == .operator && (t.text == "*" || t.text == "&"))

/-- The tokens of the return type in a head, or nothing when some token has no
place there.  `previous` is the token before the head. -/
def returnTokens? (previous : Option Token) : List Token → Option (List Token)
  | [] => some []
  | t :: ts =>
    if t.kind == .stringLiteral && previous.any (Token.isKeyword · "extern") || isStorageWord t then
      returnTokens? (some t) ts
    else if isTypeToken t then (returnTokens? (some t) ts).map (t :: ·)
    else none

/-! ## The tokens between parentheses -/

/-- The tokens before the parenthesis that closes `depth + 1` open ones.  A brace or
a semicolon comes in between for none. -/
def insideParens? (depth : Nat) : List Token → Option (List Token)
  | [] => none
  | t :: ts =>
    if t.isSymbol "(" then (insideParens? (depth + 1) ts).map (t :: ·)
    else if t.isSymbol ")" then
      match depth with
      | 0 => some []
      | depth + 1 => (insideParens? depth ts).map (t :: ·)
    else if t.isSymbol "\x7b" || t.isSymbol "\x7d" || t.isSymbol ";" then none
    else (insideParens? depth ts).map (t :: ·)

/-! ## Candidates -/

/-- A candidate that is a signature: the signature and the tokens between its
parentheses. -/
structure Candidate where
  /-- The signature. -/
  signature : Signature
  /-- The tokens between the parentheses. -/
  inside : List Token

/-- The kind of the token after a signature: a definition for a brace, a
declaration for a semicolon. -/
def terminatorKind? (t : Token) : Option Bool :=
  if t.isSymbol "\x7b" then some true else if t.isSymbol ";" then some false else none

/-- Read a candidate.  `statement` is what stands before the parenthesis, latest
token first, and `rest` is what follows it. -/
def Candidate.read? (statement rest : List Token) : Option Candidate :=
  match statement with
  | [] => none
  | name :: headRev =>
    let head := headRev.reverse
    if name.kind == .identifier && !(head.head?.any isStatementWord) then
      match insideParens? 0 rest, returnTokens? none head with
      | some inside, some (t :: ts) =>
        ((rest.drop (inside.length + 1)).head?.bind terminatorKind?).map fun isDefinition =>
          { signature :=
              { name := name.text
                returnType := typeText (t :: ts)
                parameters := parameters inside
                position := name.position
                isStatic := head.any (Token.isKeyword · "static")
                isDefinition := isDefinition }
            inside := inside }
      | _, _ => none
    else none

/-! ## The walk -/

/-- What an open brace encloses. -/
inductive Brace where
  /-- A body, an initializer or an aggregate. -/
  | block
  /-- A linkage block. -/
  | linkage
deriving DecidableEq, Repr

/-- No block is open. -/
def isTopLevel (braces : List Brace) : Bool := !braces.contains .block

/-- The statement ends with `extern` and a string. -/
def endsWithLinkage : List Token → Bool
  | string :: word :: _ => string.kind == .stringLiteral && word.isKeyword "extern"
  | _ => false

/-- The signatures in the rest of the tokens, from the open braces and the statement
so far. -/
def extractFrom (braces : List Brace) (statement : List Token) : List Token → List Signature
  | [] => []
  | t :: ts =>
    if t.isSymbol "\x7b" then
      if isTopLevel braces && endsWithLinkage statement then extractFrom (.linkage :: braces) [] ts
      else extractFrom (.block :: braces) (t :: statement) ts
    else if t.isSymbol "\x7d" then
      if isTopLevel braces.tail then extractFrom braces.tail [] ts
      else extractFrom braces.tail (t :: statement) ts
    else if t.isSymbol ";" && isTopLevel braces then extractFrom braces [] ts
    else
      match if t.isSymbol "(" && isTopLevel braces then Candidate.read? statement ts else none with
      | some candidate =>
        candidate.signature ::
          extractFrom braces (t :: statement) (ts.drop (candidate.inside.length + 1))
      | none => extractFrom braces (t :: statement) ts
termination_by ts => ts.length
decreasing_by all_goals grind

/-- The signatures of a list of tokens, in order. -/
def Signature.extract (tokens : List Token) : List Signature :=
  extractFrom [] [] (Token.significant tokens)

end HeaderLint
