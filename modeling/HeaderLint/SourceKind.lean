import HeaderLint.Path
import HeaderLint.Text.Alphanumeric

/-!
# Kinds of source files

A file is a header or an implementation by the extension of its name, in either
case.  The order of each table is the order in which pairing tries the extensions.
-/

namespace HeaderLint

open Text

/-- The role of a source file. -/
inductive SourceKind where
  | header
  | implementation
deriving DecidableEq, Repr

namespace SourceKind

/-- The name of the kind. -/
def name : SourceKind → String
  | .header => "header"
  | .implementation => "implementation"

/-- The extensions of the kind, without the full stop. -/
def extensions : SourceKind → List String
  | .header => ["h", "hpp", "hh", "hxx"]
  | .implementation => ["c", "cc", "cpp", "cxx"]

/-- The kind of file with a given extension. -/
def ofExtension? (extension : String) : Option SourceKind :=
  let lower := String.ofList (lowerAscii extension.toList)
  if header.extensions.contains lower then some .header
  else if implementation.extensions.contains lower then some .implementation
  else none

/-- The kind of the file that a path names. -/
def ofPath? (p : Path) : Option SourceKind := p.extension?.bind ofExtension?

end SourceKind

end HeaderLint
