import HeaderLint.Signature
import HeaderLint.Signature.TypeText

/-!
# Parameter lists

The tokens between the parentheses of a signature are cut at the commas outside
inner brackets.  A bracket that closes more than was opened closes nothing.  A list
whose only part is the word `void` is empty, and parts without tokens do not count.

A part is read as a parameter by the first rule that fits.

* A parenthesis, a star and an identifier in a row name a pointer to a function.
  The type is the part without that identifier.
* An identifier directly before the first square bracket names an array, if a type
  stands before it.  The type is the part without that identifier.
* An identifier at the end is the name, if a type stands before it.  It is a tag
  and no name after `struct`, `enum` or `union`.
* Otherwise the whole part is a type without a name.
-/

namespace HeaderLint

/-! ## Cutting the list -/

/-- The depth of brackets after a token. -/
def bracketDepth (depth : Nat) (t : Token) : Nat :=
  if t.isSymbol "(" || t.isSymbol "[" then depth + 1
  else if t.isSymbol ")" || t.isSymbol "]" then depth - 1
  else depth

/-- The parts of a list that starts inside `depth` brackets: the first part and the
parts after it. -/
def splitParts (depth : Nat) : List Token → List Token × List (List Token)
  | [] => ([], [])
  | t :: ts =>
    if t.isSymbol "," && depth == 0 then
      let (first, others) := splitParts 0 ts
      ([], first :: others)
    else
      let (first, others) := splitParts (bracketDepth depth t) ts
      (t :: first, others)

/-- The parts of a parameter list.  The part after the last comma counts only if it
has a token. -/
def parameterParts (tokens : List Token) : List (List Token) :=
  let (first, others) := splitParts 0 tokens
  let parts := first :: others
  if parts.getLast? = some [] then parts.dropLast else parts

/-! ## Reading a part -/

/-- The tokens before the name of a function pointer, the name, and the tokens
after it. -/
def splitFunctionPointer? : List Token → Option (List Token × Token × List Token)
  | a :: b :: c :: ts =>
    if a.isSymbol "(" && b.isSymbol "*" && c.kind == .identifier then some ([a, b], c, ts)
    else
      (splitFunctionPointer? (b :: c :: ts)).map fun (left, name, right) =>
        (a :: left, name, right)
  | _ => none

/-- The tokens before the name of an array, the name, and the tokens from the first
square bracket on. -/
def splitArray? (part : List Token) : Option (List Token × Token × List Token) :=
  let left := part.takeWhile fun t => !t.isSymbol "["
  let right := part.dropWhile fun t => !t.isSymbol "["
  match left.getLast? with
  | some name =>
    if !right.isEmpty && decide (2 ≤ left.length) && name.kind == .identifier then
      some (left.dropLast, name, right)
    else none
  | none => none

/-- The token announces the tag of a structure, an enumeration or a union. -/
def announcesTag (t : Token) : Bool :=
  t.isKeyword "struct" || t.isKeyword "enum" || t.isKeyword "union"

/-- The tokens before the name of a plain parameter, and the name. -/
def splitPlain? (part : List Token) : Option (List Token × Token × List Token) :=
  match part.getLast?, part.dropLast.getLast? with
  | some name, some previous =>
    if name.kind == .identifier && !announcesTag previous then some (part.dropLast, name, [])
    else none
  | _, _ => none

/-- A part as a parameter. -/
def parameter (part : List Token) : Parameter :=
  match splitFunctionPointer? part <|> splitArray? part <|> splitPlain? part with
  | some (left, name, right) => ⟨typeText (left ++ right), some name.text⟩
  | none => ⟨typeText part, none⟩

/-- The only part is the word `void`. -/
def isVoidList : List (List Token) → Bool
  | [[t]] => t.isKeyword "void"
  | _ => false

/-- The parameters of a list. -/
def parameters (tokens : List Token) : List Parameter :=
  let parts := parameterParts tokens
  if isVoidList parts then [] else (parts.filter fun part => !part.isEmpty).map parameter

end HeaderLint
