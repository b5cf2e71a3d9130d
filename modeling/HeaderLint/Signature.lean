import HeaderLint.Text.Search
import HeaderLint.Token

/-!
# Function signatures

A signature is what a declaration or definition says about a function.  A record is
a signature with the text of its documentation, if it has any.

`Signature.render` writes a signature on one line.  The name of a parameter goes
where the C grammar puts it: behind the star of a function pointer, directly behind
a pointer type, and after a space otherwise.  An empty parameter list is written
`void`.
-/

namespace HeaderLint

open Text

/-- A parameter of a function. -/
structure Parameter where
  /-- The text of the type. -/
  type : String
  /-- The name, absent in a prototype that gives types only. -/
  name : Option String
deriving DecidableEq, Repr, Inhabited

namespace Parameter

/-- The declaration of a parameter with a name. -/
def declare (type name : String) : String :=
  match replaceFirst ['(', '*'] (['(', '*'] ++ name.toList) type.toList with
  | some cs => String.ofList cs
  | none => if type.toList.getLast? = some '*' then type ++ name else type ++ " " ++ name

/-- The parameter as a declaration writes it. -/
def render (p : Parameter) : String :=
  match p.name with
  | some name => declare p.type name
  | none => p.type

end Parameter

/-- What a declaration or definition says about a function. -/
structure Signature where
  /-- The name of the function. -/
  name : String
  /-- The text of the return type, without storage words. -/
  returnType : String
  /-- The parameters.  The list `(void)` is empty. -/
  parameters : List Parameter
  /-- The place of the name. -/
  position : Position
  /-- The function is static. -/
  isStatic : Bool
  /-- A body follows, and not a semicolon. -/
  isDefinition : Bool
deriving DecidableEq, Repr, Inhabited

namespace Signature

/-- The line of the name. -/
def line (s : Signature) : Nat := s.position.line

/-- The column of the name. -/
def column (s : Signature) : Nat := s.position.column

/-- The function returns nothing. -/
def returnsVoid (s : Signature) : Bool := s.returnType == "void"

/-- The names of the parameters that have one. -/
def parameterNames (s : Signature) : List String := s.parameters.filterMap Parameter.name

/-- The signature on one line. -/
def render (s : Signature) : String :=
  let parameters :=
    if s.parameters.isEmpty then "void" else ", ".intercalate (s.parameters.map Parameter.render)
  s.returnType ++ " " ++ s.name ++ "(" ++ parameters ++ ")"

end Signature

/-- A function with its documentation. -/
structure FunctionRecord extends Signature where
  /-- The text of the comment that documents the function. -/
  documentation : Option String
deriving DecidableEq, Repr, Inhabited

namespace FunctionRecord

/-- Some comment documents the function. -/
def isDocumented (f : FunctionRecord) : Bool := f.documentation.isSome

end FunctionRecord

example : Parameter.render ⟨"int (*)(int)", some "f"⟩ = "int (*f)(int)" ∧
    Parameter.render ⟨"char *", some "s"⟩ = "char *s" ∧
    Parameter.render ⟨"int", some "n"⟩ = "int n" ∧ Parameter.render ⟨"...", none⟩ = "..." := by
  decide

end HeaderLint
