import HeaderLint.Pattern.Row

/-!
# Ignore patterns

An ignore pattern is a list of pieces that is matched against a relative path, byte by
byte over UTF-8.

* A byte stands for itself, `one` for a byte without a slash and `run` for any run of
  those.  A set stands for one byte.
* `anyAbove`, `anyBetween` and `anyBelow` stand for any number of directories at the
  start, in the middle and at the end of a path.
* A choice stands for any of its alternatives.  Alternatives that stand for the empty
  text only do not count.  A choice without another one stands for the empty text.

`isTooDeep` says that a pattern nests more than 250 levels.  Each of these is a level.

* A group around alternatives, and a choice if two or more of them count.
* A row of two or more parts, such as the pattern as a whole.
* A repetition, and a set.
-/

namespace HeaderLint

/-! ## Pieces -/

/-- A piece of an ignore pattern. -/
inductive IgnorePiece where
  /-- This byte. -/
  | byte (b : UInt8)
  /-- One byte that is no slash. -/
  | one
  /-- Any run of bytes without a slash. -/
  | run
  /-- One byte that some range holds, or that none holds. -/
  | set (negated : Bool) (ranges : List (UInt8 × UInt8))
  /-- Any number of directories at the start. -/
  | anyAbove
  /-- A slash, or any number of directories between slashes. -/
  | anyBetween
  /-- A slash and everything below. -/
  | anyBelow
  /-- One of some alternatives. -/
  | oneOf (alternatives : List (List IgnorePiece))

/-- The code of the slash. -/
def slashByte : UInt8 := 47

/-- The bytes of a text. -/
def bytesOf (cs : List Char) : List UInt8 := cs.flatMap String.utf8EncodeChar

namespace IgnorePiece

/-! ## Empty pieces -/

mutual

/-- The piece stands for the empty text only, because it has no alternative. -/
def isVoid : IgnorePiece → Bool
  | .oneOf alternatives => allVoid alternatives
  | _ => false

/-- Every piece stands for the empty text only. -/
def areVoid : List IgnorePiece → Bool
  | [] => true
  | p :: ps => p.isVoid && areVoid ps

/-- Every alternative stands for the empty text only. -/
def allVoid : List (List IgnorePiece) → Bool
  | [] => true
  | ps :: alternatives => areVoid ps && allVoid alternatives

end

/-! ## Matching -/

/-- The byte is a slash. -/
def isSlash (b : UInt8) : Bool := b == slashByte

/-- The row of any number of directories in front. -/
def directories (bytes : List UInt8) (row : List Bool) : List Bool :=
  Row.either row (Row.past isSlash bytes row)

mutual

/-- The row of the piece in front of a pattern with a given row. -/
def before (bytes : List UInt8) (row : List Bool) : IgnorePiece → List Bool
  | .byte b => Row.one (· == b) bytes row
  | .one => Row.one (!isSlash ·) bytes row
  | .run => Row.run (!isSlash ·) bytes row
  | .set negated ranges =>
    Row.one (fun b => ranges.any (fun r => decide (r.1 ≤ b) && decide (b ≤ r.2)) != negated)
      bytes row
  | .anyAbove => directories bytes row
  | .anyBetween => Row.one isSlash bytes (directories bytes row)
  | .anyBelow => Row.one isSlash bytes (Row.run (fun _ => true) bytes row)
  | .oneOf alternatives =>
    if allVoid alternatives then row else beforeSome bytes row alternatives

/-- The row of pieces in front of a pattern with a given row. -/
def beforeAll (bytes : List UInt8) (row : List Bool) : List IgnorePiece → List Bool
  | [] => row
  | p :: ps => p.before bytes (beforeAll bytes row ps)

/-- The row of some alternative in front of a pattern with a given row. -/
def beforeSome (bytes : List UInt8) (row : List Bool) : List (List IgnorePiece) → List Bool
  | [] => row.map fun _ => false
  | ps :: alternatives =>
    if areVoid ps then beforeSome bytes row alternatives
    else Row.either (beforeAll bytes row ps) (beforeSome bytes row alternatives)

end

/-- The pieces match all of the bytes.  Any number of directories and nothing after
them match everything. -/
def matchAll : List IgnorePiece → List UInt8 → Bool
  | [.anyAbove], _ => true
  | ps, bytes => Row.whole (beforeAll bytes (Row.rowOf List.isEmpty bytes) ps)

/-! ## Nesting -/

/-- The greatest number of levels that a pattern may nest. -/
def maxLevels : Nat := 250

/-- The greatest of some numbers of levels. -/
def deepest (levels : List Nat) : Nat := levels.foldl max 0

/-- The levels of a row whose parts have the given levels. -/
def rowLevels : List Nat → Nat
  | [] => 0
  | [n] => n
  | ns => deepest ns + 1

mutual

/-- The levels of the parts that the piece is made of. -/
def levels : IgnorePiece → List Nat
  | .byte _ => [0]
  | .one => [1]
  | .run => [2]
  | .set _ ranges => [if ranges.length = 1 then 1 else 2]
  | .anyAbove => [4]
  | .anyBetween => [4]
  | .anyBelow => [0, 1]
  | .oneOf alternatives =>
    match choiceLevels alternatives with
    | [] => []
    | [n] => [n + 1]
    | ns => [deepest ns + 2]

/-- The levels of the parts of pieces in a row. -/
def allLevels : List IgnorePiece → List Nat
  | [] => []
  | p :: ps => p.levels ++ allLevels ps

/-- The levels of the alternatives that count. -/
def choiceLevels : List (List IgnorePiece) → List Nat
  | [] => []
  | ps :: alternatives =>
    if areVoid ps then choiceLevels alternatives
    else rowLevels (allLevels ps) :: choiceLevels alternatives

end

/-- The pattern nests too many levels. -/
def isTooDeep (ps : List IgnorePiece) : Bool := decide (maxLevels < deepest (allLevels ps) + 1)

end IgnorePiece

end HeaderLint
