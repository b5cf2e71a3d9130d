import HeaderLint.Report.Encoding
import HeaderLint.Text.Quoted

/-!
# Output

A report, the functions of a file and the tokens of a file are each written in two
forms, as text for a reader and as data.  The text form gives each violation,
function or token a line of its own.  The data form is JSON in its pretty form,
without a line end after it.
-/

namespace HeaderLint

open Text

/-- The form of output. -/
inductive OutputForm where
  | text
  | json
deriving DecidableEq, Repr

/-- The form that a flag asks for. -/
def OutputForm.ofFlag (json : Bool) : OutputForm := if json then .json else .text

/-- The lines, each with its line end. -/
def unlines (ls : List String) : String := String.join (ls.map fun l => l ++ "\n")

/-! ## Reports -/

/-- The numbers of a report. -/
structure Summary where
  /-- The number of files. -/
  files : Nat
  /-- The number of functions. -/
  functions : Nat
  /-- The number of violations. -/
  violations : Nat
  /-- The number of errors. -/
  errors : Nat
  /-- The number of warnings. -/
  warnings : Nat
  /-- The number of remarks. -/
  info : Nat
deriving DecidableEq, Repr

/-- A number with the noun it counts. -/
def counted (n : Nat) (one many : String) : String := n.repr ++ " " ++ if n = 1 then one else many

namespace Summary

/-- The numbers of a report. -/
def ofReport (r : Report) : Summary where
  files := r.files.length
  functions := r.functionCount
  violations := r.violations.length
  errors := r.countAt .error
  warnings := r.countAt .warning
  info := r.countAt .info

/-- The summary as data. -/
def toJson (s : Summary) : Json :=
  .obj [("files", .num s.files), ("functions", .num s.functions), ("violations", .num s.violations),
    ("errors", .num s.errors), ("warnings", .num s.warnings), ("info", .num s.info)]

/-- The summary on one line. -/
def render (s : Summary) : String :=
  counted s.files "file" "files" ++ " checked, " ++ counted s.violations "violation" "violations" ++
    ": " ++ counted s.errors "error" "errors" ++ ", " ++ counted s.warnings "warning" "warnings" ++
    ", " ++ s.info.repr ++ " info"

end Summary

namespace Report

/-- The text form of a report: the violations, an empty line if there are any, and
the summary. -/
def renderText (r : Report) : String :=
  let summary := Summary.ofReport r
  unlines (r.violations.map Violation.render ++ (if summary.violations = 0 then [] else [""]) ++
    [summary.render])

/-- A report in either form. -/
def render (r : Report) : OutputForm → String
  | .text => r.renderText
  | .json => (Json.obj (r.fields ++ [("summary", (Summary.ofReport r).toJson)])).pretty

end Report

/-! ## Functions -/

namespace FunctionRecord

/-- What the text form says about a function besides its signature. -/
def flags (f : FunctionRecord) : List String :=
  (if f.isStatic then ["static"] else []) ++
    [if f.isDefinition then "definition" else "declaration"] ++
    (if f.isDocumented then ["documented"] else [])

/-- A function on one line. -/
def renderLine (f : FunctionRecord) (path : Path) : String :=
  path.text ++ ":" ++ f.line.repr ++ ": " ++ f.render ++ " [" ++ ", ".intercalate f.flags ++ "]"

/-- The functions of a file in either form. -/
def renderAll (fs : List FunctionRecord) (path : Path) : OutputForm → String
  | .text => unlines (fs.map fun f => f.renderLine path)
  | .json => (Json.obj [("path", .str path.text), ("functions", .arr (fs.map toJson))]).pretty

end FunctionRecord

/-! ## Tokens -/

namespace Token

/-- A token on one line. -/
def renderLine (t : Token) : String :=
  t.line.repr ++ ":" ++ t.column.repr ++ "\t" ++ t.kind.title ++ "\t" ++
    String.ofList (quoted t.text.toList)

/-- The tokens of a file in either form. -/
def renderAll (ts : List Token) (path : Path) : OutputForm → String
  | .text => unlines (ts.map renderLine)
  | .json =>
    (Json.obj [("path", .str path.text), ("token_count", .num ts.length),
      ("tokens", .arr (ts.map toJson))]).pretty

end Token

end HeaderLint
