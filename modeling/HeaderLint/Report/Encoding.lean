import HeaderLint.Json
import HeaderLint.Report

/-!
# Values as JSON

Each value of the program that is written as data has one JSON form.  The fields
stand in the order given here.
-/

namespace HeaderLint

open Json (ofOption)

/-- A token as data. -/
def Token.toJson (t : Token) : Json :=
  .obj [("kind", .str t.kind.name), ("text", .str t.text), ("line", .num t.line),
    ("column", .num t.column)]

/-- A parameter as data. -/
def Parameter.toJson (p : Parameter) : Json :=
  .obj [("type", .str p.type), ("name", ofOption .str p.name)]

/-- A function as data. -/
def FunctionRecord.toJson (f : FunctionRecord) : Json :=
  .obj [("name", .str f.name), ("return_type", .str f.returnType),
    ("parameters", .arr (f.parameters.map Parameter.toJson)), ("line_number", .num f.line),
    ("column", .num f.column), ("is_static", .bool f.isStatic),
    ("is_definition", .bool f.isDefinition), ("has_documentation", .bool f.isDocumented),
    ("documentation_text", ofOption .str f.documentation)]

/-- A violation as data. -/
def Violation.toJson (v : Violation) : Json :=
  .obj [("kind", .str v.kind.name), ("severity", .str v.severity.name),
    ("category", .str v.category.name), ("file", .str v.file.text), ("line", .num v.line),
    ("message", .str v.message)]

/-- A finding as data. -/
def Finding.toJson (f : Finding) : Json :=
  .obj [("function_name", .str f.functionName), ("kind", .str f.kind.name),
    ("header_line", ofOption .num f.headerLine), ("impl_line", ofOption .num f.implementationLine),
    ("description", .str f.description)]

/-- A configuration as data. -/
def Config.toJson (c : Config) : Json :=
  .obj [("strictness", .str c.strictness.name), ("check_format", .bool c.checkFormat),
    ("cross_reference", .bool c.crossReference), ("strict_signatures", .bool c.strictSignatures),
    ("project_root", ofOption (fun p => .str p.text) c.projectRoot),
    ("include_subdirs", .arr (c.includeSubdirs.map .str)), ("entry_point", .str c.entryPoint),
    ("reserved_prefixes", .arr (c.reservedPrefixes.map .str))]

/-- The report of a file as data.  An unknown kind has no field. -/
def FileReport.toJson (r : FileReport) : Json :=
  .obj ([("path", .str r.path.text)] ++ (r.kind.map fun k => ("kind", Json.str k.name)).toList ++
    [("function_count", .num r.functionCount),
     ("violations", .arr (r.violations.map Violation.toJson))])

/-- The fields of a report as data. -/
def Report.fields (r : Report) : List (String × Json) :=
  [("root", .str r.root.text), ("files", .arr (r.files.map FileReport.toJson))]

/-- A report as data. -/
def Report.toJson (r : Report) : Json := .obj r.fields

end HeaderLint
