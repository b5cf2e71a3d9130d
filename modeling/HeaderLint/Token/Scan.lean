import HeaderLint.Token.Lexeme

/-!
# Scanning

`Token.scan` cuts a source text into its lexemes.  Blanks other than the line feed
stand between tokens and are no token.  The last token has no text and marks the
end.

One bit passes from token to token: whether the line holds nothing but blanks and
comments so far.  A line feed token sets it, a comment keeps it, and every other
token clears it.  A line feed inside a comment or a literal is no token, so it does
not set the bit.
-/

namespace HeaderLint

open Text

namespace Token

/-- The tokens of the text that starts at `p`.  `lineStart` says that only blanks
and comments stand before it on its line. -/
def scanFrom (p : Position) (lineStart : Bool) : List Char → List Token
  | [] => [⟨.endOfFile, "", p⟩]
  | c :: cs =>
    if c = '\n' then ⟨.newline, "\n", p⟩ :: scanFrom (p.step c) true cs
    else if isBlank c then scanFrom (p.step c) lineStart cs
    else
      let l := Lexeme.read lineStart c cs
      ⟨l.kind, l.text c, p⟩ ::
        scanFrom (p.advance (c :: l.tail)) (lineStart && l.kind.isComment) (cs.drop l.tail.length)
termination_by cs => cs.length
decreasing_by
  · exact Nat.lt_succ_self _
  · exact Nat.lt_succ_self _
  · exact Nat.lt_succ_of_le (List.length_drop ▸ Nat.sub_le _ _)

/-- The tokens of a source text. -/
def scan (source : String) : List Token := scanFrom .start true source.toList

/-! ## The cases of a scan -/

theorem scanFrom_nil (p : Position) (lineStart : Bool) :
    scanFrom p lineStart [] = [⟨.endOfFile, "", p⟩] := by
  rw [scanFrom]

theorem scanFrom_newline (p : Position) (lineStart : Bool) (cs : List Char) :
    scanFrom p lineStart ('\n' :: cs) = ⟨.newline, "\n", p⟩ :: scanFrom (p.step '\n') true cs := by
  rw [scanFrom, if_pos rfl]

theorem scanFrom_blank (p : Position) (lineStart : Bool) {c : Char} (cs : List Char)
    (hn : c ≠ '\n') (hb : isBlank c = true) :
    scanFrom p lineStart (c :: cs) = scanFrom (p.step c) lineStart cs := by
  rw [scanFrom, if_neg hn, if_pos hb]

theorem scanFrom_lexeme (p : Position) (lineStart : Bool) {c : Char} (cs : List Char)
    (hn : c ≠ '\n') (hb : isBlank c = false) :
    scanFrom p lineStart (c :: cs) =
      ⟨(Lexeme.read lineStart c cs).kind, (Lexeme.read lineStart c cs).text c, p⟩ ::
        scanFrom (p.advance (c :: (Lexeme.read lineStart c cs).tail))
          (lineStart && (Lexeme.read lineStart c cs).kind.isComment)
          (cs.drop (Lexeme.read lineStart c cs).tail.length) := by
  rw [scanFrom, if_neg hn, if_neg (by simp [hb])]

example : (scan "a->b").map Token.text = ["a", "->", "b", ""] := by cbv

end Token

end HeaderLint
