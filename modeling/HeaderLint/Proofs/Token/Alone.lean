import HeaderLint.Proofs.Token.Layout
import HeaderLint.Proofs.Token.LineStart

/-!
# A token by itself

What surrounds a token shows only in where the token ends.  Its text by itself is scanned to the
same token again, at the start of the source, and nothing else (`Token.IsReadOff.scan_text`).
Every extent looks at the text behind it, but with nothing there it ends no sooner and no later
(`Lexeme.read_tail`).

The number sign is the one exception.  It is a directive where a line starts and an operator
elsewhere, and by itself it starts a line.  No other text is that of two tokens of different kinds.
-/

namespace HeaderLint

open Text

/-! ## A lexeme with nothing behind it -/

/-- A lexeme stays the same when the text ends with it. -/
theorem Lexeme.read_tail (lineStart : Bool) (c : Char) (cs : List Char) :
    read lineStart c (read lineStart c cs).tail = read lineStart c cs := by
  obtain ⟨rest, hcut⟩ := tail_read_isPrefix lineStart c cs
  have hread := read_append (FrontLE.nil_left rest) (Or.inl rfl)
    (congrArg (fun ds => (read lineStart c ds).tail) hcut)
  rwa [List.append_nil, hcut] at hread

namespace Token

/-! ## One token and the end -/

/-- The token is the operator `#`. -/
def IsSign (t : Token) : Prop := t.kind = .operator ∧ t.text = "#"

/-- The tokens of a source that is nothing but one token. -/
def alone (kind : TokenKind) (text : String) : List Token :=
  [⟨kind, text, .start⟩, ⟨.endOfFile, "", .after text.toList⟩]

/-- A lexeme that covers the whole text is the only token of it. -/
theorem scan_of_read {c : Char} {cs : List Char} {kind : TokenKind} (solid : isBlank c = false)
    (hread : Lexeme.read true c cs = ⟨kind, cs⟩)
    (htext : Lexeme.text ⟨kind, cs⟩ c = String.ofList (c :: cs)) :
    scan (String.ofList (c :: cs)) = alone kind (String.ofList (c :: cs)) := by
  have hnewline : c ≠ '\n' := by
    rintro rfl
    exact absurd solid (by decide)
  rw [scan, alone, String.toList_ofList, scanFrom_lexeme _ _ _ hnewline solid, hread, htext,
    List.drop_length, scanFrom_nil, Position.advance_start]

theorem IsReadOff.scan_text {t : Token} {rest : List Char} (h : t.IsReadOff rest)
    (hend : t.kind ≠ .endOfFile) (hsign : ¬t.IsSign) : scan t.text = alone t.kind t.text := by
  cases h with
  | endOfFile kind => exact absurd kind hend
  | newline kind text =>
    rw [kind, text]
    decide +kernel
  | @lexeme lineStart c cs solid kind text =>
    by_cases hdirective : (Lexeme.read lineStart c cs).kind = .directive
    · obtain ⟨rfl, rfl, hread⟩ := Lexeme.ruleOf_of_kind hdirective
      have hline := Lexeme.read_directive_respaced cs rfl rfl (Or.inl rfl) 0
      rw [List.replicate_zero, List.append_nil, List.append_nil] at hline
      rw [hdirective] at kind
      have htext : t.text = String.ofList ('#' :: trimEnd (restOfLine cs)) := by
        rw [← String.toList_inj, text, Lexeme.toList_text_of_directive hdirective solid, hread,
          String.toList_ofList]
      rw [kind, htext]
      refine scan_of_read solid hline (String.toList_inj.mp ?_)
      rw [Lexeme.toList_text_of_directive rfl solid, trimEnd_trimEnd, String.toList_ofList]
    · have htext : t.text = String.ofList (c :: (Lexeme.read lineStart c cs).tail) := by
        rw [← String.toList_inj, text, Lexeme.toList_text_of_ne_directive hdirective,
          String.toList_ofList]
      have hstart : Lexeme.read true c (Lexeme.read lineStart c cs).tail =
          Lexeme.read lineStart c cs := by
        rw [← Lexeme.read_tail lineStart c cs]
        cases lineStart with
        | true => rw [Lexeme.read_tail]
        | false =>
          by_cases hc : c = '#'
          · -- The sign starts no line here, so it is the operator.
            subst hc
            rw [Lexeme.read_sign] at kind htext
            exact absurd ⟨kind, htext⟩ hsign
          · rw [Lexeme.read_tail, ← Lexeme.read_of_ne_sign hc false, Lexeme.read_tail]
      rw [kind, htext]
      refine scan_of_read solid hstart (String.toList_inj.mp ?_)
      rw [Lexeme.toList_text_of_ne_directive hdirective, String.toList_ofList]

/-! ## Tokens of a source -/

theorem scan_text_of_mem {source : String} {t : Token} (ht : t ∈ scan source)
    (hend : t.kind ≠ .endOfFile) (hsign : ¬t.IsSign) : scan t.text = alone t.kind t.text := by
  obtain ⟨place⟩ := nonempty_place ht
  exact (place.isReadOff ht).scan_text hend hsign

/-- Only the end has no text. -/
theorem IsReadOff.text_eq_empty_iff {t : Token} {rest : List Char} (h : t.IsReadOff rest) :
    t.text = "" ↔ t.kind = .endOfFile := by
  cases h with
  | endOfFile kind text => simp [kind, text]
  | newline kind text => simp [kind, text]
  | @lexeme lineStart c cs solid kind text =>
    rw [kind, text]
    exact ⟨fun h => absurd h (Lexeme.text_ne_empty _ solid),
      fun h => absurd h (Lexeme.kind_read_ne lineStart c cs).2⟩

/-- Two tokens with the same text have the same kind, unless the text is a number sign. -/
theorem kind_eq_of_text_eq {source other : String} {t u : Token} (ht : t ∈ scan source)
    (hu : u ∈ scan other) (htext : t.text = u.text) (hsign : t.text ≠ "#") : t.kind = u.kind := by
  obtain ⟨place⟩ := nonempty_place ht
  obtain ⟨spot⟩ := nonempty_place hu
  have hends : t.kind = .endOfFile ↔ u.kind = .endOfFile := by
    rw [← (place.isReadOff ht).text_eq_empty_iff, htext, (spot.isReadOff hu).text_eq_empty_iff]
  by_cases hend : t.kind = .endOfFile
  · rw [hend, hends.mp hend]
  · have hsame : alone t.kind t.text = alone u.kind t.text := by
      rw [← scan_text_of_mem ht hend fun h => hsign h.2, htext,
        scan_text_of_mem hu (mt hends.mpr hend) fun h => hsign (htext.trans h.2)]
    exact (Token.mk.inj (List.cons.inj hsame).1).1

/-- A token of a source, scanned by itself, is the only token, except for the operator `#`.  So the
number sign is the only text that belongs to tokens of different kinds. -/
theorem scan_alone :
    (∀ (source : String), ∀ t ∈ scan source, t.kind ≠ .endOfFile → ¬t.IsSign →
      scan t.text = [⟨t.kind, t.text, ⟨1, 1⟩⟩, ⟨.endOfFile, "", .after t.text.toList⟩]) ∧
    ∀ text : String, text = "#" ↔
      ∃ source other, ∃ t ∈ scan source, ∃ u ∈ scan other,
        t.text = text ∧ u.text = text ∧ t.kind ≠ u.kind := by
  refine ⟨fun source t ht hend hsign => scan_text_of_mem ht hend hsign, fun text => ?_⟩
  constructor
  · rintro rfl
    exact ⟨"#", "a#", ⟨.directive, "#", ⟨1, 1⟩⟩, by decide +kernel, ⟨.operator, "#", ⟨1, 2⟩⟩,
      by decide +kernel, rfl, rfl, by decide⟩
  · rintro ⟨source, other, t, ht, u, hu, rfl, htext, hkind⟩
    by_contra hsign
    exact hkind (kind_eq_of_text_eq ht hu htext.symm hsign)

/-- A number before an exponent that is none, a directive with blanks behind it, and a comment that
is never closed. -/
theorem scan_alone_unfinished :
    ((⟨.number, "1", ⟨1, 1⟩⟩ : Token) ∈ scan "1e+\n# if\t\n*/*/" ∧
      scan "1" = [⟨.number, "1", ⟨1, 1⟩⟩, ⟨.endOfFile, "", ⟨1, 2⟩⟩]) ∧
    ((⟨.directive, "# if", ⟨2, 1⟩⟩ : Token) ∈ scan "1e+\n# if\t\n*/*/" ∧
      scan "# if" = [⟨.directive, "# if", ⟨1, 1⟩⟩, ⟨.endOfFile, "", ⟨1, 5⟩⟩]) ∧
    (⟨.blockComment, "/*/", ⟨3, 2⟩⟩ : Token) ∈ scan "1e+\n# if\t\n*/*/" ∧
      scan "/*/" = [⟨.blockComment, "/*/", ⟨1, 1⟩⟩, ⟨.endOfFile, "", ⟨1, 4⟩⟩] := by
  have hsign : ∀ t : Token, t.kind ≠ .operator → ¬t.IsSign := fun t hkind h => hkind h.1
  have hnumber : (⟨.number, "1", ⟨1, 1⟩⟩ : Token) ∈ scan "1e+\n# if\t\n*/*/" := by decide +kernel
  have hdirective : (⟨.directive, "# if", ⟨2, 1⟩⟩ : Token) ∈ scan "1e+\n# if\t\n*/*/" := by
    decide +kernel
  have hcomment : (⟨.blockComment, "/*/", ⟨3, 2⟩⟩ : Token) ∈ scan "1e+\n# if\t\n*/*/" := by
    decide +kernel
  exact ⟨⟨hnumber, scan_alone.1 _ _ hnumber (by decide) (hsign _ (by decide))⟩,
    ⟨hdirective, scan_alone.1 _ _ hdirective (by decide) (hsign _ (by decide))⟩,
    hcomment, scan_alone.1 _ _ hcomment (by decide) (hsign _ (by decide))⟩

end Token

end HeaderLint
