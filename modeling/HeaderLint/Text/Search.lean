/-!
# Lines and occurrences

Texts are lists of characters here.

* `lines` are the lines of a text.  A line ends at a line feed, and a carriage
  return directly before the line feed belongs to the line end.  A text that ends
  with a line feed has no empty last line.
* `afterFirst` is what follows the first occurrence of a text in another one.
* `replaceFirst` puts another text in the place of the first occurrence.
-/

namespace HeaderLint.Text

/-- The line without a carriage return at its end. -/
def dropReturn (line : List Char) : List Char :=
  if line.getLast? = some '\r' then line.dropLast else line

/-- The lines of a text, without their line ends. -/
def lines (cs : List Char) : List (List Char) :=
  let segments := cs.splitOn '\n'
  segments.dropLast.map dropReturn ++ (segments.getLast?.filter fun s => !s.isEmpty).toList

/-- What follows the first occurrence of `needle`, if there is one. -/
def afterFirst (needle : List Char) : List Char → Option (List Char)
  | [] => needle.isPrefixOf? []
  | c :: cs =>
    match needle.isPrefixOf? (c :: cs) with
    | some rest => some rest
    | none => afterFirst needle cs

/-- The text holds `needle` somewhere. -/
def holds (needle cs : List Char) : Bool := (afterFirst needle cs).isSome

/-- The text with `new` in the place of the first occurrence of `old`, if there is
one. -/
def replaceFirst (old new : List Char) : List Char → Option (List Char)
  | [] => (old.isPrefixOf? []).map (new ++ ·)
  | c :: cs =>
    match old.isPrefixOf? (c :: cs) with
    | some rest => some (new ++ rest)
    | none => (replaceFirst old new cs).map (c :: ·)

/-- The line end is a line feed with or without a carriage return before it, and a
carriage return elsewhere is part of its line. -/
example : lines "a\r\nb\n\nc\r".toList = ["a".toList, "b".toList, [], "c\r".toList] := by decide

example : lines "a\n".toList = ["a".toList] ∧ lines [] = [] := by decide

example : afterFirst "b".toList "abcb".toList = some "cb".toList := by decide

example : replaceFirst "(*".toList "(*f".toList "int (*)(int)".toList
    = some "int (*f)(int)".toList := by decide

end HeaderLint.Text
