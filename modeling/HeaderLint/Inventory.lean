import HeaderLint.DocFormat
import HeaderLint.Path
import HeaderLint.Token.Scan

/-!
# Inventories

The inventory of a file is its path, its tokens and its functions in the order of
the text.  A name may have several records, such as a declaration and a definition.
-/

namespace HeaderLint

/-- The tokens and functions of a file. -/
structure Inventory where
  /-- The path of the file. -/
  path : Path
  /-- The tokens of the file. -/
  tokens : List Token
  /-- The functions of the file. -/
  functions : List FunctionRecord
deriving DecidableEq, Repr

namespace Inventory

/-- The inventory of a source text. -/
def ofSource (path : Path) (source : String) : Inventory :=
  let tokens := Token.scan source
  ⟨path, tokens, FunctionRecord.extract tokens⟩

/-- The first record with a name. -/
def function? (inv : Inventory) (name : String) : Option FunctionRecord :=
  inv.functions.find? fun f => f.name == name

/-- The first definition with a name. -/
def definition? (inv : Inventory) (name : String) : Option FunctionRecord :=
  inv.functions.find? fun f => f.name == name && f.isDefinition

/-- Some record with the name is documented. -/
def isDocumented (inv : Inventory) (name : String) : Bool :=
  inv.functions.any fun f => f.name == name && f.isDocumented

/-- Some record with the name has complete documentation. -/
def isComplete (inv : Inventory) (name : String) : Bool :=
  inv.functions.any fun f => f.name == name && f.isComplete

end Inventory

/-- The first record of each name. -/
def firstRecords (fs : List FunctionRecord) : List FunctionRecord :=
  match fs with
  | [] => []
  | f :: fs => f :: (firstRecords fs).filter fun g => g.name != f.name

end HeaderLint
