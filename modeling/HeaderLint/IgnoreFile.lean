import HeaderLint.Path
import HeaderLint.Pattern.Ignore.Rule
import HeaderLint.Text.Search
import HeaderLint.Text.Utf8

/-!
# Ignore files

An ignore file is a list of rules with the directory they speak about.  Reading one
stops at the first line that is not UTF-8.  If the pattern of some rule nests too
deep, the file has no rules at all.

A rule sees a path without the directory of the file at its start.  Directory and
path are compared as texts, after a `./` at the start of either is dropped.
-/

namespace HeaderLint

open Text

/-- The rules of an ignore file. -/
structure IgnoreFile where
  /-- The directory the rules speak about, without a `./` at its start. -/
  base : List Char
  /-- The rules, in the order of the file. -/
  rules : List IgnoreRule

namespace IgnoreFile

/-! ## Reading -/

/-- The bytes are the encoding of some text. -/
def isWellFormed (bs : List UInt8) : Bool := bytesOf (decodeUtf8 bs) == bs

/-- The lines of a file up to the first one that is not UTF-8. -/
def wellFormedLines (content : List UInt8) : List (List Char) :=
  let segments := content.splitOn 0x0a
  let good := (segments.takeWhile isWellFormed).map decodeUtf8
  if good.length = segments.length then good.dropLast.map dropReturn ++ good.getLast?.toList
  else good.map dropReturn

/-- The lines without byte order marks at the start of the first one. -/
def dropMarks : List (List Char) → List (List Char)
  | [] => []
  | line :: lines => line.dropWhile (· == '\ufeff') :: lines

/-- The rules of a file with a given content. -/
def rulesOf (content : List UInt8) : List IgnoreRule :=
  let rules := (dropMarks (wellFormedLines content)).filterMap IgnoreRule.parse?
  if rules.any fun rule => IgnorePiece.isTooDeep rule.pieces then [] else rules

/-- The text without `start` at its start. -/
def dropStart (start text : List Char) : List Char := (start.isPrefixOf? text).getD text

/-- The path without a `./` at its start. -/
def dropHere (path : List Char) : List Char := dropStart ['.', '/'] path

/-- The ignore file of a directory with a given content. -/
def ofContent (dir : Path) (content : List UInt8) : IgnoreFile :=
  ⟨dropHere dir.text.toList, rulesOf content⟩

/-- The ignore file without rules. -/
def empty : IgnoreFile := ⟨[], []⟩

/-! ## Deciding -/

/-- The text is a path of the working directory itself, such as `.` or `./.`. -/
def isHere (path : List Char) : Bool := Path.components ⟨String.ofList path⟩ == [.here]

/-- A path as the rules of a directory see it: without the directory at its start.
A bare name stays as it is. -/
def relativeTo (base path : List Char) : List Char :=
  let path := dropHere path
  if isHere base || !path.contains '/' then path
  else
    match base.isPrefixOf? path with
    | some rest => dropStart ['/'] rest
    | none => path

/-- What the file decides about a path. -/
def verdict? (f : IgnoreFile) (path : Path) (isDir : Bool) : Option Verdict :=
  if f.rules.isEmpty then none
  else lastVerdict? f.rules (relativeTo f.base (dropHere path.text.toList)) isDir

end IgnoreFile

end HeaderLint
