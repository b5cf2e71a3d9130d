/-!
# Tokens

A token is a classified piece of a source text with the position where it starts.
Comments, directives and line ends are tokens too, since the documentation checks
ask where a comment stands relative to a function.

A position is a line and a column, both counted from one.  A line feed ends its
line, and every other character takes one column.
-/

namespace HeaderLint

/-! ## Positions -/

/-- A place in a source text. -/
structure Position where
  /-- The line, counted from one. -/
  line : Nat
  /-- The column, counted from one. -/
  column : Nat
deriving DecidableEq, Repr, Inhabited

namespace Position

/-- The place of the first character. -/
def start : Position := ⟨1, 1⟩

/-- The place after a character. -/
def step (p : Position) (c : Char) : Position :=
  if c = '\n' then ⟨p.line + 1, 1⟩ else ⟨p.line, p.column + 1⟩

/-- The place after a text. -/
def advance (p : Position) (cs : List Char) : Position := cs.foldl step p

/-- The first place comes before the second in reading order. -/
def before (p q : Position) : Bool :=
  decide (p.line < q.line) || (decide (p.line = q.line) && decide (p.column < q.column))

theorem advance_nil (p : Position) : p.advance [] = p := rfl

theorem advance_cons (p : Position) (c : Char) (cs : List Char) :
    p.advance (c :: cs) = (p.step c).advance cs := rfl

theorem advance_append (p : Position) (cs ds : List Char) :
    p.advance (cs ++ ds) = (p.advance cs).advance ds := List.foldl_append

/-- A text moves the line by the number of its line feeds. -/
theorem line_advance (p : Position) (cs : List Char) :
    (p.advance cs).line = p.line + cs.count '\n' := by
  induction cs generalizing p with
  | nil => rfl
  | cons c cs ih =>
    rw [advance_cons, ih, List.count_cons]
    by_cases h : c = '\n'
    · simp [step, h]
      omega
    · simp [step, h]

theorem before_iff {p q : Position} :
    p.before q = true ↔ p.line < q.line ∨ p.line = q.line ∧ p.column < q.column := by
  simp [before]

end Position

/-! ## Kinds -/

/-- The classes of tokens. -/
inductive TokenKind where
  | identifier
  | keyword
  | number
  | stringLiteral
  | charLiteral
  | lineComment
  | blockComment
  /-- A directive: a line that starts with a number sign, up to its line end. -/
  | directive
  | operator
  | punctuation
  | newline
  | endOfFile
  /-- A character that starts no other token. -/
  | unknown
deriving DecidableEq, Repr, Inhabited

namespace TokenKind

/-- The name of the kind in data. -/
def name : TokenKind → String
  | .identifier => "identifier"
  | .keyword => "keyword"
  | .number => "number"
  | .stringLiteral => "string-literal"
  | .charLiteral => "char-literal"
  | .lineComment => "line-comment"
  | .blockComment => "block-comment"
  | .directive => "preprocessor"
  | .operator => "operator"
  | .punctuation => "punctuation"
  | .newline => "newline"
  | .endOfFile => "eof"
  | .unknown => "unknown"

/-- The name of the kind in text for a reader.  Two kinds have a longer one. -/
def title : TokenKind → String
  | .directive => "preprocessor-directive"
  | .endOfFile => "end-of-file"
  | kind => kind.name

/-- Every kind. -/
def all : List TokenKind :=
  [.identifier, .keyword, .number, .stringLiteral, .charLiteral, .lineComment, .blockComment,
   .directive, .operator, .punctuation, .newline, .endOfFile, .unknown]

/-- The kind with a given name in data. -/
def ofName? (s : String) : Option TokenKind := all.find? fun kind => kind.name == s

/-- Comments of either form. -/
def isComment : TokenKind → Bool
  | .lineComment | .blockComment => true
  | _ => false

/-- The kinds that carry the structure of a program: all but comments, directives,
line ends and the end of the file. -/
def isSignificant : TokenKind → Bool
  | .lineComment | .blockComment | .directive | .newline | .endOfFile => false
  | _ => true

theorem ofName?_name (kind : TokenKind) : ofName? kind.name = some kind := by
  cases kind <;> decide

end TokenKind

/-! ## Tokens -/

/-- A token of a source text. -/
structure Token where
  /-- The class of the token. -/
  kind : TokenKind
  /-- The text of the token.  A block comment keeps its line feeds. -/
  text : String
  /-- The place of its first character. -/
  position : Position
deriving DecidableEq, Repr, Inhabited

namespace Token

/-- The line of the first character. -/
def line (t : Token) : Nat := t.position.line

/-- The column of the first character. -/
def column (t : Token) : Nat := t.position.column

/-- The line of the last character.  Only a block comment and a literal continued
by a backslash span lines. -/
def endLine (t : Token) : Nat := t.line + t.text.toList.count '\n'

/-- The token is an operator or a punctuation mark with this text. -/
def isSymbol (t : Token) (symbol : String) : Bool :=
  (t.kind == .operator || t.kind == .punctuation) && t.text == symbol

/-- The token is this keyword. -/
def isKeyword (t : Token) (word : String) : Bool := t.kind == .keyword && t.text == word

/-- The tokens that carry the structure of a program. -/
def significant (tokens : List Token) : List Token := tokens.filter fun t => t.kind.isSignificant

end Token

end HeaderLint
