import HeaderLint.Pattern.Ignore.Reading
import HeaderLint.Text.Blank

/-!
# Ignore rules

A line of an ignore file is a rule for paths relative to the directory of the file.
Blanks at its end do not count unless the last one follows a backslash.

* A line without text and a line that starts with `#` are no rules.
* A `!` at the start turns the rule around: what it matches is kept.
* A slash at the end restricts the rule to directories.
* A pattern without another slash matches at any depth.  A slash at the start or in
  the middle ties the pattern to the directory of the file.

A line whose pattern is invalid is no rule.
-/

namespace HeaderLint

open Text

/-- What an ignore rule decides. -/
inductive Verdict where
  | ignored
  | kept
deriving DecidableEq, Repr

/-- A line of an ignore file. -/
structure IgnoreRule where
  /-- The pieces of the pattern. -/
  pieces : List IgnorePiece
  /-- What becomes of a path that matches. -/
  verdict : Verdict
  /-- Only directories match. -/
  onlyDirs : Bool

namespace IgnoreRule

/-- The line without the blanks that do not count. -/
def trimLine (line : List Char) : List Char :=
  if [' ', '\\'].isPrefixOf line.reverse then line else trimEnd line

/-- The pattern of a line, tied to the directory of the file or free. -/
def anchoredText (anchored : Bool) (text : List Char) : List Char :=
  let free := !anchored && !text.contains '/' && text != ['*', '*']
  let text := if free then ['*', '*', '/'] ++ text else text
  if ['*', '*', '/'].isPrefixOf text.reverse then text ++ ['/', '*'] else text

/-- The rule of a line, if the line is a valid pattern. -/
def parse? (line : List Char) : Option IgnoreRule :=
  if line.head? = some '#' ∨ trimLine line = [] then none
  else
    let text := trimLine line
    let escaped := ['\\', '!'].isPrefixOf text || ['\\', '#'].isPrefixOf text
    let negated := text.head? = some '!'
    let text := if escaped ∨ negated then text.drop 1 else text
    let anchored := !escaped && text.head? == some '/'
    let text := if anchored then text.drop 1 else text
    let onlyDirs := text.getLast? == some '/'
    let text := if onlyDirs then text.dropLast else text
    let text := if onlyDirs && text.getLast? == some '\\' then text.dropLast else text
    (readPieces? none false [] [] (anchoredText anchored text)).map fun pieces =>
      ⟨pieces, if negated then .kept else .ignored, onlyDirs⟩

/-- The rule matches a path relative to the directory of its file. -/
def applies (rule : IgnoreRule) (path : List Char) (isDir : Bool) : Bool :=
  (!rule.onlyDirs || isDir) && IgnorePiece.matchAll rule.pieces (bytesOf path)

end IgnoreRule

/-- What the last rule that matches a path decides, if one matches. -/
def lastVerdict? (rules : List IgnoreRule) (path : List Char) (isDir : Bool) : Option Verdict :=
  (rules.reverse.find? fun rule => rule.applies path isDir).map IgnoreRule.verdict

/-- What one line decides about a path. -/
private def decides (line path : String) (isDir : Bool) : Option Verdict :=
  lastVerdict? (IgnoreRule.parse? line.toList).toList path.toList isDir

example : decides "a.c" "src/a.c" false = some .ignored ∧ decides "/a.c" "src/a.c" false = none ∧
    decides "gen/" "src/gen" true = some .ignored ∧ decides "gen/" "gen" false = none ∧
    decides "src/**" "src" true = none ∧ decides "src/**" "src/x/y.c" false = some .ignored ∧
    decides "!*.h" "b.h" false = some .kept ∧ decides "[ab].c" "b.c" false = some .ignored := by
  cbv

end HeaderLint
