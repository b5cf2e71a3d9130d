import HeaderLint.Pattern.Row

/-!
# Exclude patterns

An exclude pattern is matched against a whole relative path.

* `?` stands for one character and `*` for any run of characters, slashes included.
* `[...]` stands for one character of a set and `[!...]` for one outside it.  A set
  holds single characters and ranges, and a closing bracket directly at the start
  of a set is a member.
* `**` stands for any number of whole folders.  It has to be a whole component of
  the pattern.  At the end it stands for any rest.
* Any other character stands for itself.

A pattern with three stars in a row, with two stars beside other text, or with a set
that is not closed is invalid.
-/

namespace HeaderLint

/-- A piece of an exclude pattern. -/
inductive ExcludePiece where
  /-- This character. -/
  | char (c : Char)
  /-- One character. -/
  | one
  /-- One character that some range holds, or that none holds. -/
  | set (negated : Bool) (ranges : List (Char × Char))
  /-- Any run of characters. -/
  | run
  /-- Any number of folders. -/
  | folders
deriving DecidableEq, Repr

/-- The row of the piece in front of a pattern with a given row.  Folders take nothing,
or anything up to a slash, or the whole rest. -/
def ExcludePiece.before (text : List Char) (row : List Bool) : ExcludePiece → List Bool
  | .char c => Row.one (· == c) text row
  | .one => Row.one (fun _ => true) text row
  | .set negated ranges =>
    Row.one (fun d => ranges.any (fun r => decide (r.1 ≤ d) && decide (d ≤ r.2)) != negated)
      text row
  | .run => Row.run (fun _ => true) text row
  | .folders =>
    Row.either (row.map (· || row.getLastD false)) (Row.past (· == '/') text row)

/-- An exclude pattern. -/
abbrev ExcludePattern := List ExcludePiece

namespace ExcludePattern

/-- The ranges of a set.  A single character is a range by itself. -/
def ranges : List Char → List (Char × Char)
  | a :: '-' :: b :: cs => (a, b) :: ranges cs
  | a :: cs => (a, a) :: ranges cs
  | [] => []

/-- The members of a set up to its closing bracket, if there is one.  The first
member may be a closing bracket. -/
def members? : List Char → Option (List Char)
  | [] => none
  | c :: cs => if cs.contains ']' then some (c :: cs.takeWhile (· != ']')) else none

/-- The set after an opening bracket, and the number of characters it takes. -/
def readSet? : List Char → Option (ExcludePiece × Nat)
  | '!' :: cs => (members? cs).map fun ms => (.set true (ranges ms), ms.length + 2)
  | cs => (members? cs).map fun ms => (.set false (ranges ms), ms.length + 1)

/-- The pieces of the rest of a pattern.  `previous` is the character before it. -/
def parseFrom? (previous : Option Char) : List Char → Option ExcludePattern
  | [] => some []
  | '?' :: cs => (parseFrom? (some '?') cs).map (.one :: ·)
  | '[' :: cs =>
    match readSet? cs with
    | some (piece, n) => (parseFrom? (some ']') (cs.drop n)).map (piece :: ·)
    | none => none
  | '*' :: '*' :: '*' :: _ => none
  | '*' :: '*' :: cs =>
    if previous.all (· == '/') then
      match cs with
      | [] => some [.folders]
      | c :: cs => if c = '/' then (parseFrom? (some '/') cs).map (.folders :: ·) else none
    else none
  | '*' :: cs => (parseFrom? (some '*') cs).map (.run :: ·)
  | c :: cs => (parseFrom? (some c) cs).map (.char c :: ·)
termination_by cs => cs.length
decreasing_by all_goals grind

/-- The pattern of a text, if the text is valid. -/
def parse? (text : String) : Option ExcludePattern := parseFrom? none text.toList

/-- The row of a pattern over a text. -/
def row (p : ExcludePattern) (text : List Char) : List Bool :=
  p.foldr (fun piece row => piece.before text row) (Row.rowOf List.isEmpty text)

/-- The pattern matches the path text. -/
def matchesText (p : ExcludePattern) (text : String) : Bool := Row.whole (p.row text.toList)

end ExcludePattern

example : ((ExcludePattern.parse? "src/**/a.c").map (·.matchesText "src/x/y/a.c")) = some true ∧
    ((ExcludePattern.parse? "src/**").map (·.matchesText "src/x/y")) = some true ∧
    ((ExcludePattern.parse? "*.c").map (·.matchesText "src/a.c")) = some true := by
  cbv

example : ExcludePattern.parse? "a**" = none ∧ ExcludePattern.parse? "[" = none ∧
    ExcludePattern.parse? "***" = none := by cbv

end HeaderLint
