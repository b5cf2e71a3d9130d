/-!
# Paths

A path is the text it was given as, and messages print that text.  Two paths are
compared by their components, which leave out what does not matter to the file they
name.

* A slash at the start is the root component.
* Empty segments and the segments `.` are no components.  A `.` at the start of a
  relative path is one, so `./a.c` and `a.c` differ while `src/./a.c` and `src/a.c`
  do not.
* `..` is a component of its own.  Nothing is cancelled.

The order of paths is the order of their components, and names go by code point.
-/

namespace HeaderLint

/-- A path as it was written. -/
structure Path where
  /-- The text of the path. -/
  text : String
deriving DecidableEq, Repr, Inhabited

namespace Path

/-! ## Components -/

/-- A component of a path. -/
inductive Component where
  /-- The slash at the start. -/
  | root
  /-- The full stop at the start. -/
  | here
  /-- Two full stops. -/
  | up
  /-- Any other segment. -/
  | name (s : String)
deriving DecidableEq, Repr

/-- The component of a segment, if it is one wherever it stands. -/
def Component.ofSegment? (segment : String) : Option Component :=
  if segment = "" ∨ segment = "." then none
  else if segment = ".." then some .up
  else some (.name segment)

/-- The order of components: the root, then `.`, then `..`, then names. -/
def Component.le : Component → Component → Bool
  | .root, _ => true
  | .here, .root => false
  | .here, _ => true
  | .up, .root => false
  | .up, .here => false
  | .up, _ => true
  | .name s, .name t => decide (s ≤ t)
  | .name _, _ => false

/-- The pieces of the text between slashes. -/
def segments (p : Path) : List String := (p.text.toList.splitOn '/').map String.ofList

/-- The path starts at the root. -/
def isAbsolute (p : Path) : Bool := p.text.toList.head? = some '/'

/-- The components of a path. -/
def components (p : Path) : List Component :=
  let first :=
    if p.isAbsolute then [.root] else if p.segments.head? = some "." then [.here] else []
  first ++ p.segments.filterMap Component.ofSegment?

/-- The two paths have the same components. -/
def sameAs (p q : Path) : Bool := p.components == q.components

/-- The order of lists of components. -/
def componentsLe : List Component → List Component → Bool
  | [], _ => true
  | _ :: _, [] => false
  | a :: as, b :: bs => if a = b then componentsLe as bs else a.le b

/-- The order of paths. -/
def le (p q : Path) : Bool := componentsLe p.components q.components

/-! ## Names -/

/-- The last component, if it is a name. -/
def fileName? (p : Path) : Option String :=
  match p.components.getLast? with
  | some (.name s) => some s
  | _ => none

/-- The parts of a name before and after its last full stop.  A full stop at the
start does not count. -/
def splitName (name : String) : String × Option String :=
  let backwards := name.toList.reverse
  let after := backwards.takeWhile (· != '.')
  match backwards.drop (after.length + 1) with
  | [] => (name, none)
  | before => (String.ofList before.reverse, some (String.ofList after.reverse))

/-- The name without its extension. -/
def stem? (p : Path) : Option String := p.fileName?.map fun name => (splitName name).1

/-- The part of the name after its last full stop. -/
def extension? (p : Path) : Option String := p.fileName?.bind fun name => (splitName name).2

/-! ## Joining and cutting -/

/-- The path `q` as seen from `p`.  An absolute `q` stands alone. -/
def join (p q : Path) : Path :=
  if q.isAbsolute || p.text.isEmpty then q
  else if p.text.toList.getLast? = some '/' then ⟨p.text ++ q.text⟩
  else ⟨p.text ++ "/" ++ q.text⟩

/-- A text read backwards, without the slashes and `.` segments it starts with.  A
slash that is the whole rest stays, and so does a single full stop. -/
def trimBackwards : List Char → List Char
  | '/' :: c :: cs => trimBackwards (c :: cs)
  | '.' :: '/' :: cs => trimBackwards ('/' :: cs)
  | cs => cs
termination_by cs => cs.length

/-- The path up to its last component.  The path has a name. -/
def parent (p : Path) : Path :=
  let before := (trimBackwards p.text.toList.reverse).dropWhile (· != '/')
  ⟨String.ofList (trimBackwards before).reverse⟩

end Path

example : (Path.components ⟨"src//./a.c/"⟩) = [.name "src", .name "a.c"] ∧
    (Path.components ⟨"./a.c"⟩) = [.here, .name "a.c"] ∧
    (Path.components ⟨"/../a"⟩) = [.root, .up, .name "a"] := by decide +kernel

example : Path.splitName ".c" = (".c", none) ∧ Path.splitName "a." = ("a", some "") ∧
    Path.splitName "a.b.c" = ("a.b", some "c") := by decide +kernel

example : Path.parent ⟨"src//./a.c"⟩ = ⟨"src"⟩ ∧ Path.parent ⟨"./a.c"⟩ = ⟨"."⟩ ∧
    Path.parent ⟨"/a.c/"⟩ = ⟨"/"⟩ ∧ Path.parent ⟨"a.c"⟩ = ⟨""⟩ := by decide +kernel

end HeaderLint
