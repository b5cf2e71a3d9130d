import HeaderLint.Text.Alphabetic
import HeaderLint.Text.Numeric

/-!
# Classes of characters

`isAlphanumeric` ranges over all of Unicode and decides what counts as prose.
The other classes are those of the C grammar and know ASCII only: a word of the
language is made of `isWordChar`, and a letter beyond ASCII is no part of one.
-/

namespace HeaderLint.Text

/-- A character is alphanumeric when it is alphabetic or numeric. -/
def isAlphanumeric (c : Char) : Bool := isAlphabetic c || isNumeric c

/-- A character that may start a word: an ASCII letter or the underscore. -/
def isWordStart (c : Char) : Bool := c.isAlpha || c == '_'

/-- A character that may continue a word: an ASCII letter, an ASCII digit or the
underscore. -/
def isWordChar (c : Char) : Bool := c.isAlphanum || c == '_'

/-- A hexadecimal digit in either case. -/
def isHexDigit (c : Char) : Bool :=
  c.isDigit || ('a' ≤ c && c ≤ 'f') || ('A' ≤ c && c ≤ 'F')

/-- The text with its ASCII capitals in lower case.  The only other characters
whose lower case holds an ASCII letter are the Kelvin sign, for `k`, and the
dotted capital `I`, for `i` and a combining dot.  So a comparison with ASCII text
that has no `k`, and no `i` at its end, comes out as under the full case map. -/
def lowerAscii (cs : List Char) : List Char := cs.map Char.toLower

end HeaderLint.Text
