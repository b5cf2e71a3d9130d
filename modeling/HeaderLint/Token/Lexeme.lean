import HeaderLint.Text.Alphanumeric
import HeaderLint.Text.Blank
import HeaderLint.Token

/-!
# Lexemes

A lexeme is the stretch of source text that one token covers.  The kind and the
extent of a lexeme are read off the text in front of it, and off one bit: whether
the line holds nothing but blanks and comments so far.  In this order:

* `//` starts a comment that ends before the line end.
* `/*` starts a comment that ends with the first `*/` after it.
* A number sign at the start of a line makes the rest of the line a directive.
* A quote starts a literal.  It ends with the next quote of the same kind, or
  before a line end.  A backslash takes the next character with it, whichever
  that is.
* A digit, or a full stop before a digit, starts a number.
* A letter or an underscore starts a word, which is a keyword or an identifier.
* Any other character is a mark.  Two characters that form an operator go
  together.

A comment or literal that is never closed ends with the text.  No lexeme is
malformed: a character that no rule knows is a lexeme by itself.

Every lexeme has a first character, and `Lexeme.tail` is what it covers after that.
`Lexeme.tail_read_isPrefix` says that the tail is the start of the text that follows the
first character.
-/

namespace HeaderLint

open Text

/-! ## Tables -/

/-- The keywords of C. -/
def keywords : List String :=
  ["auto", "break", "case", "char", "const", "continue", "default", "do", "double", "else",
   "enum", "extern", "float", "for", "goto", "if", "inline", "int", "long", "register",
   "restrict", "return", "short", "signed", "sizeof", "static", "struct", "switch", "typedef",
   "union", "unsigned", "void", "volatile", "while", "_Alignas", "_Alignof", "_Atomic",
   "_Bool", "_Complex", "_Generic", "_Imaginary", "_Noreturn", "_Static_assert",
   "_Thread_local"]

/-- The word is a keyword of C. -/
def isKeyword (word : String) : Bool := keywords.contains word

/-- The operators of two characters. -/
def pairOperators : List (Char × Char) :=
  [('=', '='), ('!', '='), ('<', '='), ('>', '='), ('&', '&'), ('|', '|'), ('+', '+'),
   ('-', '-'), ('<', '<'), ('>', '>'), ('+', '='), ('-', '='), ('*', '='), ('/', '='),
   ('%', '='), ('&', '='), ('|', '='), ('^', '='), ('-', '>')]

/-- The operators of one character. -/
def operatorChars : List Char :=
  ['+', '-', '*', '/', '%', '=', '<', '>', '!', '&', '|', '^', '~', '?', ':', '.', '#']

/-- The punctuation marks. -/
def punctuationChars : List Char := ['(', ')', '\x7b', '\x7d', '[', ']', ';', ',']

/-! ## Extents -/

/-- The rest of the line. -/
def restOfLine (cs : List Char) : List Char := cs.takeWhile (· != '\n')

/-- The rest of a block comment after its first two characters. -/
def blockCommentTail : List Char → List Char
  | [] => []
  | '*' :: '/' :: _ => ['*', '/']
  | c :: cs => c :: blockCommentTail cs

/-- The rest of a literal after its opening quote. -/
def literalTail (quote : Char) : List Char → List Char
  | [] => []
  | ['\\'] => ['\\']
  | '\\' :: c :: cs => '\\' :: c :: literalTail quote cs
  | c :: cs =>
    if c = '\n' then []
    else if c = quote then [c]
    else c :: literalTail quote cs

/-- The decimal digits at the front. -/
def digits (cs : List Char) : List Char := cs.takeWhile Char.isDigit

/-- The hexadecimal digits at the front. -/
def hexadecimals (cs : List Char) : List Char := cs.takeWhile isHexDigit

/-- A full stop and the digits after it, if the text starts so. -/
def fraction : List Char → List Char
  | '.' :: cs => '.' :: digits cs
  | _ => []

/-- The digits of an exponent with their sign, if there is a digit. -/
def exponentDigits : List Char → List Char
  | [] => []
  | c :: cs =>
    if c.isDigit then c :: digits cs
    else if (c = '+' ∨ c = '-') ∧ cs.head?.any Char.isDigit then c :: digits cs
    else []

/-- An exponent with its letter, if the text starts with a complete one. -/
def exponent : List Char → List Char
  | [] => []
  | c :: cs =>
    if (c = 'e' ∨ c = 'E') ∧ exponentDigits cs ≠ [] then c :: exponentDigits cs else []

/-- A letter that a number may end with. -/
def isSuffixLetter (c : Char) : Bool :=
  c = 'u' || c = 'U' || c = 'l' || c = 'L' || c = 'f' || c = 'F'

/-- The suffix letters at the front. -/
def suffixLetters (cs : List Char) : List Char := cs.takeWhile isSuffixLetter

/-- A text and what `more` finds after it in `cs`. -/
def followedBy (part : List Char) (more : List Char → List Char) (cs : List Char) : List Char :=
  part ++ more (cs.drop part.length)

/-- The rest of a decimal number after its first character. -/
def decimalTail (c : Char) (cs : List Char) : List Char :=
  let mantissa := if c = '.' then digits cs else followedBy (digits cs) fraction cs
  followedBy (followedBy mantissa exponent cs) suffixLetters cs

/-- The rest of a hexadecimal number after its zero, if the text is one: an `x` in
either case, a digit, more digits and suffix letters. -/
def hexadecimalTail? (c : Char) : List Char → Option (List Char)
  | x :: cs =>
    if c = '0' ∧ (x = 'x' ∨ x = 'X') ∧ cs.head?.any isHexDigit then
      some (followedBy (x :: hexadecimals cs) suffixLetters (x :: cs))
    else none
  | [] => none

/-- The rest of a number after its first character. -/
def numberTail (c : Char) (cs : List Char) : List Char :=
  (hexadecimalTail? c cs).getD (decimalTail c cs)

/-- The rest of a word after its first character. -/
def wordTail (cs : List Char) : List Char := cs.takeWhile isWordChar

/-! ## The lexeme at the front of a text -/

/-- The kind of a lexeme and what it covers after its first character. -/
structure Lexeme where
  /-- The class of the token. -/
  kind : TokenKind
  /-- The characters after the first one. -/
  tail : List Char
deriving DecidableEq, Repr

namespace Lexeme

/-- A word is a keyword if the table has it. -/
def word (c : Char) (cs : List Char) : Lexeme :=
  let tail := wordTail cs
  ⟨if isKeyword (String.ofList (c :: tail)) then .keyword else .identifier, tail⟩

/-- A mark: an operator of two characters, or one character. -/
def mark (c : Char) (cs : List Char) : Lexeme :=
  match cs.head?.filter fun d => pairOperators.contains (c, d) with
  | some d => ⟨.operator, [d]⟩
  | none =>
    if operatorChars.contains c then ⟨.operator, []⟩
    else if punctuationChars.contains c then ⟨.punctuation, []⟩
    else ⟨.unknown, []⟩

/-- The lexeme that starts with `c` and goes on in `cs`.  `lineStart` says that
only blanks and comments stand before it on its line. -/
def read (lineStart : Bool) (c : Char) (cs : List Char) : Lexeme :=
  if c = '/' ∧ cs.head? = some '/' then ⟨.lineComment, restOfLine cs⟩
  else if c = '/' ∧ cs.head? = some '*' then ⟨.blockComment, '*' :: blockCommentTail cs.tail⟩
  else if c = '#' ∧ lineStart then ⟨.directive, restOfLine cs⟩
  else if c = '"' then ⟨.stringLiteral, literalTail '"' cs⟩
  else if c = '\'' then ⟨.charLiteral, literalTail '\'' cs⟩
  else if c.isDigit ∨ c = '.' ∧ cs.head?.any Char.isDigit then ⟨.number, numberTail c cs⟩
  else if isWordStart c then word c cs
  else mark c cs

/-- The text of the token of a lexeme that starts with `c`.  A directive loses the
blanks at its end. -/
def text (l : Lexeme) (c : Char) : String :=
  String.ofList (if l.kind = .directive then trimEnd (c :: l.tail) else c :: l.tail)

end Lexeme

/-! ## Extents are prefixes -/

theorem blockCommentTail_isPrefix (cs : List Char) : blockCommentTail cs <+: cs := by
  fun_induction blockCommentTail cs with
  | case1 => exact List.prefix_rfl
  | case2 cs => exact ⟨cs, rfl⟩
  | case3 c cs _ ih => exact (List.prefix_cons_inj c).mpr ih

theorem literalTail_isPrefix (quote : Char) (cs : List Char) : literalTail quote cs <+: cs := by
  fun_induction literalTail quote cs with
  | case1 => exact List.prefix_rfl
  | case2 => exact List.prefix_rfl
  | case3 c cs ih => exact (List.prefix_cons_inj '\\').mpr ((List.prefix_cons_inj c).mpr ih)
  | case4 c cs => exact List.nil_prefix
  | case5 cs => exact ⟨cs, rfl⟩
  | case6 c cs _ _ _ _ ih => exact (List.prefix_cons_inj c).mpr ih

theorem fraction_isPrefix (cs : List Char) : fraction cs <+: cs := by
  fun_cases fraction cs with
  | case1 cs => exact (List.prefix_cons_inj '.').mpr (List.takeWhile_prefix _)
  | case2 => exact List.nil_prefix

theorem exponentDigits_isPrefix (cs : List Char) : exponentDigits cs <+: cs := by
  fun_cases exponentDigits cs with
  | case1 => exact List.prefix_rfl
  | case2 c cs => exact (List.prefix_cons_inj c).mpr (List.takeWhile_prefix _)
  | case3 c cs => exact (List.prefix_cons_inj c).mpr (List.takeWhile_prefix _)
  | case4 => exact List.nil_prefix

theorem exponent_isPrefix (cs : List Char) : exponent cs <+: cs := by
  fun_cases exponent cs with
  | case1 => exact List.prefix_rfl
  | case2 c cs => exact (List.prefix_cons_inj c).mpr (exponentDigits_isPrefix cs)
  | case3 => exact List.nil_prefix

/-- A prefix followed by a prefix of the rest is a prefix. -/
theorem followedBy_isPrefix {part cs : List Char} {more : List Char → List Char}
    (hp : part <+: cs) (hm : ∀ ds, more ds <+: ds) : followedBy part more cs <+: cs := by
  obtain ⟨rest, rfl⟩ := hp
  rw [followedBy, List.drop_left]
  exact (List.prefix_append_right_inj part).mpr (hm rest)

theorem decimalTail_isPrefix (c : Char) (cs : List Char) : decimalTail c cs <+: cs := by
  refine followedBy_isPrefix (followedBy_isPrefix ?_ exponent_isPrefix)
    fun ds => List.takeWhile_prefix _
  split
  · exact List.takeWhile_prefix _
  · exact followedBy_isPrefix (List.takeWhile_prefix _) fraction_isPrefix

theorem numberTail_isPrefix (c : Char) (cs : List Char) : numberTail c cs <+: cs := by
  rw [numberTail]
  cases h : hexadecimalTail? c cs with
  | none => exact decimalTail_isPrefix c cs
  | some tail =>
    cases cs with
    | nil => cases h
    | cons x cs =>
      rw [hexadecimalTail?] at h
      split at h
      · cases h
        exact followedBy_isPrefix ((List.prefix_cons_inj x).mpr (List.takeWhile_prefix _))
          fun ds => List.takeWhile_prefix _
      · cases h

namespace Lexeme

theorem tail_mark_isPrefix (c : Char) (cs : List Char) : (mark c cs).tail <+: cs := by
  rw [mark]
  split
  · next d h =>
    cases cs with
    | nil => cases h
    | cons e cs =>
      rw [List.head?_cons, Option.filter_some] at h
      split at h
      · cases h
        exact ⟨cs, rfl⟩
      · cases h
  · split
    · exact List.nil_prefix
    · split <;> exact List.nil_prefix

/-- A lexeme covers the start of the text. -/
theorem tail_read_isPrefix (lineStart : Bool) (c : Char) (cs : List Char) :
    (read lineStart c cs).tail <+: cs := by
  rw [read]
  split
  · exact List.takeWhile_prefix _
  split
  · next h =>
    cases cs with
    | nil => simp at h
    | cons d cs =>
      have hd : d = '*' := Option.some.inj h.2
      subst hd
      exact (List.prefix_cons_inj '*').mpr (blockCommentTail_isPrefix cs)
  split
  · exact List.takeWhile_prefix _
  split
  · exact literalTail_isPrefix _ cs
  split
  · exact literalTail_isPrefix _ cs
  split
  · exact numberTail_isPrefix c cs
  split
  · exact List.takeWhile_prefix _
  · exact tail_mark_isPrefix c cs

end Lexeme

end HeaderLint
