import HeaderLint.Pattern.Ignore

/-!
# Reading ignore patterns

The text of an ignore pattern is read from left to right.

* `*` stands for any run of bytes without a slash and `?` for one such byte.
* `[...]` stands for one byte of a set, and `[!...]` or `[^...]` for one outside it.
  A bracket that is never closed stands for itself, and so does every later one.
* `**` as a whole component stands for any number of directories.  At the end it
  stands for everything below a directory.
* Alternatives stand between braces with commas between them.
* A backslash makes the next character stand for itself.

A text with an unfinished escape, a range in the wrong order or unbalanced braces is
no pattern.
-/

namespace HeaderLint

/-! ## Sets -/

/-- What reading a set finds. -/
inductive SetReading where
  /-- The set is never closed. -/
  | unclosed
  /-- A range is in the wrong order. -/
  | invalid
  /-- The ranges of the set, and the number of characters up to its end. -/
  | closed (ranges : List (Char × Char)) (length : Nat)

/-- Read the members of a set.  `ranges` are those read so far, latest first, and
`length` is the number of their characters.  `atStart` says that there is none yet,
and `inRange` that the last one is followed by a dash. -/
def readMembers (atStart inRange : Bool) (ranges : List (Char × Char)) (length : Nat) :
    List Char → SetReading
  | [] => .unclosed
  | c :: cs =>
    if c = ']' ∧ !atStart then
      .closed ((if inRange then ('-', '-') :: ranges else ranges).reverse) (length + 1)
    else if c = '-' ∧ !atStart ∧ !inRange then readMembers false true ranges (length + 1) cs
    else
      match inRange, ranges with
      | true, (first, _) :: ranges =>
        if c < first then .invalid
        else readMembers false false ((first, c) :: ranges) (length + 1) cs
      | _, ranges => readMembers false false ((c, c) :: ranges) (length + 1) cs

/-- The ranges of bytes that a range of characters stands for.  Characters beyond
ASCII have several bytes, and the range runs from the last byte of its first
character to the first byte of its last one. -/
def byteRanges (r : Char × Char) : List (UInt8 × UInt8) :=
  let single : UInt8 → UInt8 × UInt8 := fun b => (b, b)
  let first := bytesOf [r.1]
  let last := bytesOf [r.2]
  if r.1 = r.2 then first.map single
  else
    match first.getLast?, last with
    | some a, b :: bs => first.dropLast.map single ++ (a, b) :: bs.map single
    | _, _ => []

/-! ## Pieces -/

/-- A group of alternatives that is still open. -/
structure OpenGroup where
  /-- The pieces before the group, latest first. -/
  before : List IgnorePiece
  /-- The alternatives that are complete, latest first. -/
  complete : List (List IgnorePiece)

/-- Two stars that are no component of their own are two runs. -/
def twoRuns (pieces : List IgnorePiece) : List IgnorePiece := .run :: .run :: pieces

/-- The pieces with a piece in the place of the latest one, unless that already
stands for any number of directories at the same end. -/
def replaceLatest (p : IgnorePiece) : List IgnorePiece → List IgnorePiece
  | .anyAbove :: ps => .anyAbove :: ps
  | .anyBelow :: ps => .anyBelow :: ps
  | _ :: ps => p :: ps
  | [] => [p]

/-- The pieces after two stars, and whether the stars take the slash after them.
`previous` is the character before the stars, `grouped` says that a group is open,
and `rest` follows the stars. -/
def readStars (previous : Option Char) (grouped : Bool) (pieces : List IgnorePiece)
    (rest : List Char) : List IgnorePiece × Bool :=
  let next := rest.head?
  if pieces.isEmpty then
    if next.all (· == '/') then ([.anyAbove], next.isSome) else (twoRuns pieces, false)
  else if previous != some '/' &&
      !(grouped && (previous == some ',' || previous == some '\x7b')) then
    (twoRuns pieces, false)
  else if next.isNone || (grouped && (next == some ',' || next == some '\x7d')) then
    (replaceLatest .anyBelow pieces, false)
  else if next == some '/' then (replaceLatest .anyBetween pieces, true)
  else (twoRuns pieces, false)

/-- The pieces of the bytes of a character. -/
def literalPieces (c : Char) : List IgnorePiece := (bytesOf [c]).map .byte

/-- Read the rest of a pattern.  `previous` is the character before it, `literal`
says that an unclosed bracket was met, `groups` are the open groups, innermost
first, and `pieces` are those of the current alternative, latest first. -/
def readPieces? (previous : Option Char) (literal : Bool) (groups : List OpenGroup)
    (pieces : List IgnorePiece) : List Char → Option (List IgnorePiece)
  | [] => if groups.isEmpty then some pieces.reverse else none
  | '?' :: cs => readPieces? (some '?') literal groups (.one :: pieces) cs
  | '*' :: '*' :: cs =>
    let (pieces, takesSlash) := readStars previous (!groups.isEmpty) pieces cs
    if takesSlash then readPieces? (some '/') literal groups pieces (cs.drop 1)
    else readPieces? (some '*') literal groups pieces cs
  | '*' :: cs => readPieces? (some '*') literal groups (.run :: pieces) cs
  | '\\' :: cs =>
    match cs with
    | [] => none
    | c :: cs => readPieces? (some c) literal groups ((literalPieces c).reverse ++ pieces) cs
  | c :: cs =>
    if c = '[' ∧ !literal then
      let negated := cs.head? = some '!' ∨ cs.head? = some '^'
      let start := if negated then 1 else 0
      match readMembers true false [] start (cs.drop start) with
      | .unclosed => readPieces? (some '[') true groups (.byte 0x5b :: pieces) cs
      | .invalid => none
      | .closed ranges length =>
        readPieces? (some ']') literal groups
          (.set (decide negated) (ranges.flatMap byteRanges) :: pieces) (cs.drop length)
    else if c = '\x7b' then readPieces? (some c) literal (⟨pieces, []⟩ :: groups) [] cs
    else
      match groups with
      | group :: groups =>
        if c = '\x7d' then
          readPieces? (some c) literal groups
            (.oneOf ((pieces.reverse :: group.complete).reverse) :: group.before) cs
        else if c = ',' then
          readPieces? (some c) literal
            ({ group with complete := pieces.reverse :: group.complete } :: groups) [] cs
        else
          readPieces? (some c) literal (group :: groups) ((literalPieces c).reverse ++ pieces) cs
      | [] =>
        if c = '\x7d' then none
        else readPieces? (some c) literal [] ((literalPieces c).reverse ++ pieces) cs
termination_by cs => cs.length
decreasing_by all_goals grind

end HeaderLint
