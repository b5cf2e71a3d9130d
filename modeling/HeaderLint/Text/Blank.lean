import HeaderLint.Text.Ranges

/-!
# Blank characters

The characters with the property White_Space of the Unicode character database,
and what is done with them at the ends of a text and between its words.

* `trimStart`, `trimEnd` and `trim` drop the blanks at one end or at both.
* `words` are the longest runs without a blank.
-/

namespace HeaderLint.Text

/-- The ranges of the property White_Space, in increasing order. -/
def blankRanges : List (Nat × Nat) :=
  [(0x9, 0xd), (0x20, 0x20), (0x85, 0x85), (0xa0, 0xa0), (0x1680, 0x1680), (0x2000, 0x200a),
   (0x2028, 0x2029), (0x202f, 0x202f), (0x205f, 0x205f), (0x3000, 0x3000)]

/-- A character is blank when one of the ranges holds it. -/
def isBlank (c : Char) : Bool := inRanges blankRanges c

/-- The text without the blanks at its start. -/
def trimStart (cs : List Char) : List Char := cs.dropWhile isBlank

/-- The text without the blanks at its end. -/
def trimEnd (cs : List Char) : List Char := (cs.reverse.dropWhile isBlank).reverse

/-- The text without the blanks at both ends. -/
def trim (cs : List Char) : List Char := trimEnd (trimStart cs)

/-- The words of a text: its longest runs of characters that are not blank. -/
def words (cs : List Char) : List (List Char) :=
  (cs.splitOnP isBlank).filter fun w => !w.isEmpty

/-- The words of a text with one space between two of them. -/
def spaced (cs : List Char) : List Char := [' '].intercalate (words cs)

/-- The line end and the no-break space are blank, the zero-width space is not. -/
example : isBlank '\n' = true ∧ isBlank '\u00a0' = true ∧ isBlank '\u200b' = false := by decide

example : spaced " const\tchar  * ".toList = "const char *".toList := by decide

end HeaderLint.Text
