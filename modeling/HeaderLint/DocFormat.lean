import HeaderLint.DocComment
import HeaderLint.Text.Alphanumeric
import HeaderLint.Text.Blank

/-!
# The format of documentation

Documentation is read line by line, each line without the delimiters of the comment
and without the star of its gutter.  Complete documentation has these pieces.

* A description: a line with prose that is no marker line.
* For each named parameter a line that describes it, either after the name in
  backquotes or after the tag `@param` or `\param` and the name.
* For a function that returns something, a line that describes the return value.
* An annotation: a line that starts with `--` and goes on with prose.

A text is prose if it has an alphanumeric character.  Marker lines are annotations,
lines that describe the return value, lines that start with `@` or a backslash, and
lines that start with the name of a parameter in backquotes.

`FunctionRecord.isComplete` is the verdict and `FunctionRecord.missingPieces` lists
what is missing.
-/

namespace HeaderLint

open Text

/-! ## Lines -/

/-- A line of documentation. -/
abbrev DocLine := List Char

namespace DocLine

/-- What a comment or one of its lines starts with, longer texts first. -/
def openers : List (List Char) :=
  [['/', '*', '*'], ['/', '*', '!'], ['/', '*'], ['/', '/', '/'], ['/', '/', '!'], ['/', '/']]

/-- The line without the opener of a comment. -/
def dropOpener (line : List Char) : List Char :=
  (openers.findSome? fun o => o.isPrefixOf? line).getD line

/-- The line without the end of a block comment. -/
def dropCloser (line : List Char) : List Char :=
  match line.reverse with
  | '/' :: '*' :: rest => rest.reverse
  | _ => line

/-- The line without the star of the gutter.  Two stars in a row are emphasis and
stay. -/
def dropGutter : List Char → List Char
  | '*' :: rest => if rest.head? = some '*' then '*' :: rest else rest
  | line => line

/-- A line of a comment without delimiters and gutter. -/
def ofCommentLine (line : List Char) : DocLine :=
  trim (dropGutter (trim (dropCloser (trimEnd (dropOpener (trim line))))))

/-- The lines of the text of a comment. -/
def ofComment (text : String) : List DocLine := (lines text.toList).map ofCommentLine

/-- The text has an alphanumeric character. -/
def isProse (line : List Char) : Bool := line.any isAlphanumeric

/-- The line is an annotation. -/
def isNote (line : DocLine) : Bool := (['-', '-'].isPrefixOf? line).any isProse

/-- The line describes the return value. -/
def describesReturn (line : DocLine) : Bool :=
  let lower := lowerAscii line
  ["return", "@return", "\\return"].any (fun tag => tag.toList.isPrefixOf lower) ||
    holds "`return`".toList lower

/-- A name in backquotes. -/
def backquoted (name : String) : List Char := '`' :: name.toList ++ ['`']

/-- What follows a tag and a direction such as `[in]`, without blanks at its start. -/
def afterTag? (tag : String) (line : DocLine) : Option (List Char) :=
  (tag.toList.isPrefixOf? line).map fun rest =>
    trimStart (rest.dropWhile fun c => c == '[' || isAlphabetic c || c == ']')

/-- No character that continues a name stands at the front. -/
def endsName (rest : List Char) : Bool := !(rest.head?.any fun c => isAlphanumeric c || c == '_')

/-- The line describes the parameter after a tag. -/
def describesTagged (tag : String) (line : DocLine) (name : String) : Bool :=
  match (afterTag? tag line).bind fun rest => name.toList.isPrefixOf? rest with
  | some rest => endsName rest && isProse rest
  | none => false

/-- The line describes the parameter.  A line that has the name in backquotes is
read by what follows the first such place, whatever else it has. -/
def describesParameter (line : DocLine) (name : String) : Bool :=
  match afterFirst (backquoted name) line with
  | some rest => isProse rest
  | none => describesTagged "@param" line name || describesTagged "\\param" line name

/-- The line marks a piece other than the description, for a function with these
parameter names. -/
def isMarker (line : DocLine) (names : List String) : Bool :=
  isNote line || describesReturn line || line.head? = some '@' || line.head? = some '\\' ||
    names.any fun name => (backquoted name).isPrefixOf line

/-- The line is part of the description. -/
def isDescription (line : DocLine) (names : List String) : Bool :=
  isProse line && !isMarker line names

end DocLine

/-! ## Pieces -/

/-- A piece of complete documentation. -/
inductive DocPiece where
  | description
  | parameter (name : String)
  | returnValue
  | note
deriving DecidableEq, Repr

namespace DocPiece

/-- The piece as a message names it. -/
def describe : DocPiece → String
  | .description => "a description"
  | .parameter name => "parameter `" ++ name ++ "`"
  | .returnValue => "a return value description"
  | .note => "a `--` annotation"

end DocPiece

namespace FunctionRecord

open DocLine

/-- The function has documentation with every piece. -/
def isComplete (f : FunctionRecord) : Bool :=
  match f.documentation with
  | none => false
  | some text =>
    let doc := ofComment text
    doc.any (fun line => isDescription line f.parameterNames) &&
      f.parameterNames.all (fun name => doc.any fun line => describesParameter line name) &&
      (f.returnsVoid || doc.any describesReturn) &&
      doc.any isNote

/-- The pieces that the documentation lacks, in the order of a message.  Without
documentation it lacks them all. -/
def missingPieces (f : FunctionRecord) : List DocPiece :=
  let doc := ofComment (f.documentation.getD "")
  (if doc.any fun line => isDescription line f.parameterNames then [] else [.description]) ++
    (f.parameterNames.filter fun name => !doc.any fun line => describesParameter line name).map
      .parameter ++
    (if f.returnsVoid || doc.any describesReturn then [] else [.returnValue]) ++
    (if doc.any isNote then [] else [.note])

end FunctionRecord

example : DocLine.ofCommentLine "  * -- pure.  */".toList = "-- pure.".toList := by decide +kernel

example : DocLine.describesParameter "`dst_len` - bytes".toList "dst" = false ∧
    DocLine.describesParameter "@param[in] dst where".toList "dst" = true := by decide +kernel

end HeaderLint
