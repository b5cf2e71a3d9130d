import HeaderLint.Token

/-!
# The text of a type

A type is written as its tokens in order, with a space between two of them unless
one of these holds.

* The first is an opening bracket, a star, an ampersand or a full stop.
* The second is a closing bracket, an opening square bracket, a comma or a full
  stop.
* The first closes and the second opens a parenthesis.

So `char` and `*` give `char *`, and a pointer to a function of one integer gives
`int (*)(int)`.
-/

namespace HeaderLint

/-- After this text no space is written. -/
def bindsRight (text : String) : Bool := ["(", "[", "*", "&", "."].contains text

/-- Before this text no space is written. -/
def bindsLeft (text : String) : Bool := [")", "[", "]", ",", "."].contains text

/-- A space stands between two texts of a type. -/
def isSpaced (left right : String) : Bool :=
  !bindsRight left && !bindsLeft right && !(left == ")" && right == "(")

/-- Texts of a type that follow the text `left`. -/
def joinAfter (left : String) : List String → String
  | [] => ""
  | right :: rest => (if isSpaced left right then " " else "") ++ right ++ joinAfter right rest

/-- The text of a type with the given token texts. -/
def joinTexts : List String → String
  | [] => ""
  | text :: rest => text ++ joinAfter text rest

/-- The text of a type with the given tokens. -/
def typeText (tokens : List Token) : String := joinTexts (tokens.map Token.text)

example : joinTexts ["const", "char", "*", "const"] = "const char *const" := by decide

example : joinTexts ["int", "(", "*", ")", "(", "int", ",", "char", "*", ")"]
    = "int (*)(int, char *)" := by decide

end HeaderLint
