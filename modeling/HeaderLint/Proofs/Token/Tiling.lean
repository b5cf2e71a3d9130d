import Mathlib.Data.List.Defs
import HeaderLint.Proofs.Token.Position
import HeaderLint.Proofs.Token.Rules
import HeaderLint.Token.Scan

/-!
# The tokens tile the source

`Token.scan` drops nothing but blanks.  `Token.Tiles p cs ts` says that the tokens
`ts` are the text `cs` cut at gaps, when `cs` starts at the place `p`: every token
stands where the text before it ends, and the last token is an empty one at the end
of the text.

Only one token covers less than its lexeme: a directive loses the blanks at the end
of its line.  They are a gap of their own (`Lexeme.text_append_gap`), so they join
the gap in front of the next token (`Tiles.gap`).

`Token.scan_tiles` says that a scan tiles its source.  What follows reads off
tilings: the gaps and texts in order (`Tiles.exists_pieces`), and the order of the
positions (`Tiles.isChain`).
-/

namespace HeaderLint

open Text

/-! ## The text of a lexeme -/

namespace Lexeme

theorem toList_text_of_ne_directive {l : Lexeme} (h : l.kind ≠ .directive) (c : Char) :
    (l.text c).toList = c :: l.tail := by
  rw [text, if_neg h, String.toList_ofList]

/-- The text of a directive does not end in blanks. -/
theorem toList_text_of_directive {l : Lexeme} (h : l.kind = .directive) {c : Char}
    (hb : isBlank c = false) : (l.text c).toList = c :: trimEnd l.tail := by
  rw [text, if_pos h, String.toList_ofList, trimEnd_cons hb]

theorem text_ne_empty (l : Lexeme) {c : Char} (hb : isBlank c = false) : l.text c ≠ "" := by
  intro h
  have hl : (l.text c).toList = [] := by rw [h]; rfl
  by_cases hd : l.kind = .directive
  · rw [toList_text_of_directive hd hb] at hl
    cases hl
  · rw [toList_text_of_ne_directive hd] at hl
    cases hl

/-- A lexeme is the text of its token followed by a gap.  The gap is the end of a
directive, and otherwise empty. -/
theorem text_append_gap (lineStart : Bool) {c : Char} (hb : isBlank c = false) (cs : List Char) :
    ∃ gap, IsGap gap ∧
      c :: (read lineStart c cs).tail = ((read lineStart c cs).text c).toList ++ gap := by
  by_cases hd : (read lineStart c cs).kind = .directive
  · obtain ⟨-, -, hr⟩ := ruleOf_of_kind hd
    obtain ⟨blanks, hcut, hblanks⟩ := trimEnd_append_blanks (restOfLine cs)
    refine ⟨blanks, fun d hd' => ⟨hblanks d hd', ?_⟩, ?_⟩
    · -- A directive holds no line feed, so neither do the blanks at its end.
      rintro rfl
      exact newline_not_mem_restOfLine cs (hcut ▸ List.mem_append_right _ hd')
    · rw [toList_text_of_directive hd hb, hr, List.cons_append, ← hcut]
  · exact ⟨[], isGap_nil, by rw [toList_text_of_ne_directive hd, List.append_nil]⟩

end Lexeme

namespace Token

/-! ## Tilings -/

/-- The tokens tile a text that starts at a place. -/
inductive Tiles : Position → List Char → List Token → Prop where
  /-- Only a gap is left. -/
  | last {p : Position} {gap : List Char} (blank : IsGap gap) :
      Tiles p gap [⟨.endOfFile, "", p.advance gap⟩]
  /-- A gap, a token with a text, and a tiling of the rest. -/
  | token {p : Position} {gap rest : List Char} {t : Token} {ts : List Token}
      (blank : IsGap gap) (kind : t.kind ≠ .endOfFile) (text : t.text ≠ "")
      (place : t.position = p.advance gap)
      (tiles : Tiles (t.position.advance t.text.toList) rest ts) :
      Tiles p (gap ++ (t.text.toList ++ rest)) (t :: ts)

namespace Tiles

/-- A gap in front of a tiled text changes nothing but the place. -/
theorem gap {p : Position} {gap cs : List Char} {ts : List Token} (hg : IsGap gap)
    (h : Tiles (p.advance gap) cs ts) : Tiles p (gap ++ cs) ts := by
  cases h with
  | last blank =>
    rw [← Position.advance_append]
    exact .last (isGap_append.mpr ⟨hg, blank⟩)
  | token blank kind text place tiles =>
    rw [← Position.advance_append] at place
    rw [← List.append_assoc]
    exact .token (isGap_append.mpr ⟨hg, blank⟩) kind text place tiles

/-- A token in front of a tiled text. -/
theorem cons {t : Token} {cs rest : List Char} {ts : List Token} (kind : t.kind ≠ .endOfFile)
    (text : t.text ≠ "") (cut : cs = t.text.toList ++ rest)
    (h : Tiles (t.position.advance t.text.toList) rest ts) : Tiles t.position cs (t :: ts) := by
  rw [cut]
  exact (Tiles.token (p := t.position) isGap_nil kind text rfl h :)

end Tiles

theorem scanFrom_tiles (p : Position) (lineStart : Bool) (cs : List Char) :
    Tiles p cs (scanFrom p lineStart cs) := by
  fun_induction scanFrom p lineStart cs with
  | case1 p => exact .last isGap_nil
  | case2 p lineStart cs ih =>
    have htext : "\n".toList = ['\n'] := rfl
    refine Tiles.cons (t := ⟨.newline, "\n", p⟩) (by simp) (by simp) (by rw [htext]; rfl) ?_
    rw [htext]
    exact ih
  | case3 p lineStart c cs hn hb ih =>
    have hgap : IsGap [c] := isGap_cons.mpr ⟨⟨hb, hn⟩, isGap_nil⟩
    exact Tiles.gap hgap ih
  | case4 p lineStart c cs hn hb l ih =>
    rw [Bool.not_eq_true] at hb
    obtain ⟨gap, hgap, hcut⟩ := Lexeme.text_append_gap lineStart hb cs
    have htiles : Tiles (p.advance (l.text c).toList) (gap ++ cs.drop l.tail.length)
        (scanFrom (p.advance (c :: l.tail)) (lineStart && l.kind.isComment)
          (cs.drop l.tail.length)) := by
      refine .gap hgap ?_
      rw [← Position.advance_append, ← hcut]
      exact ih
    refine Tiles.cons (t := ⟨l.kind, l.text c, p⟩)
      (Lexeme.kind_read_ne lineStart c cs).2 (l.text_ne_empty hb) ?_ htiles
    rw [← List.append_assoc, ← hcut, List.cons_append, List.prefix_iff_eq_append.mp
      (Lexeme.tail_read_isPrefix lineStart c cs)]

/-- The tokens of a scan tile its source. -/
theorem scan_tiles (source : String) : Tiles .start source.toList (scan source) :=
  scanFrom_tiles .start true source.toList

/-! ## Gaps and texts in order -/

/-- A gap and the token after it. -/
structure Piece where
  /-- The gap. -/
  gap : List Char
  /-- The token. -/
  token : Token

/-- The text of a piece. -/
def Piece.chars (q : Piece) : List Char := q.gap ++ q.token.text.toList

/-- A tiled text is its pieces in order and a last gap.  A token stands where the
text before it ends. -/
theorem Tiles.exists_pieces {p : Position} {cs : List Char} {ts : List Token}
    (h : Tiles p cs ts) :
    ∃ (pieces : List Piece) (last : List Char),
      ts = pieces.map Piece.token ++ [⟨.endOfFile, "", p.advance cs⟩] ∧
      cs = pieces.flatMap Piece.chars ++ last ∧ IsGap last ∧
      (∀ q ∈ pieces, IsGap q.gap ∧ q.token.text ≠ "" ∧ q.token.kind ≠ .endOfFile) ∧
      ∀ before q after, pieces = before ++ q :: after →
        q.token.position = p.advance (before.flatMap Piece.chars ++ q.gap) := by
  induction h with
  | @last p gap blank =>
    exact ⟨[], gap, rfl, rfl, blank, by simp, by simp⟩
  | @token p gap rest t ts blank kind text place tiles ih =>
    obtain ⟨pieces, last, hts, hcut, hlast, hpieces, hplaces⟩ := ih
    refine ⟨⟨gap, t⟩ :: pieces, last, ?_, ?_, hlast, ?_, ?_⟩
    · rw [hts, place, ← Position.advance_append, ← Position.advance_append]
      rfl
    · rw [hcut, List.flatMap_cons, Piece.chars]
      simp only [List.append_assoc]
    · exact List.forall_mem_cons.mpr ⟨⟨blank, text, kind⟩, hpieces⟩
    · intro before q after hq
      cases before with
      | nil =>
        obtain ⟨rfl, -⟩ := List.cons.inj hq
        exact place
      | cons b before =>
        obtain ⟨rfl, hpieces'⟩ := List.cons.inj hq
        rw [hplaces before q after hpieces', place, ← Position.advance_append,
          ← Position.advance_append, List.flatMap_cons, Piece.chars]
        simp only [List.append_assoc]

/-! ## Order -/

/-- The second token starts on the line where the first ends, and after it. -/
def Follows (t u : Token) : Prop := u.line = t.endLine ∧ t.position.before u.position = true

/-- The first token of a tiling stands behind a gap. -/
theorem Tiles.exists_head {p : Position} {cs : List Char} {ts : List Token} (h : Tiles p cs ts) :
    ∃ u us gap, ts = u :: us ∧ IsGap gap ∧ u.position = p.advance gap := by
  cases h with
  | last blank => exact ⟨_, _, _, rfl, blank, rfl⟩
  | token blank _ _ place _ => exact ⟨_, _, _, rfl, blank, place⟩

/-- A token that stands behind the text of another and a gap follows it. -/
theorem follows_of_gap {t u : Token} {gap : List Char} (ht : t.text ≠ "") (hg : IsGap gap)
    (hu : u.position = (t.position.advance t.text.toList).advance gap) : Follows t u := by
  have hne : t.text.toList ++ gap ≠ [] := by simp [ht]
  constructor
  · rw [line, hu, Position.advance_gap _ hg, Position.line_advance]
    rfl
  · rw [hu, ← Position.advance_append]
    exact t.position.before_advance hne

theorem Tiles.isChain {p : Position} {cs : List Char} {ts : List Token} (h : Tiles p cs ts) :
    ts.IsChain Follows := by
  induction h with
  | last => exact .singleton _
  | token _ _ text _ tiles ih =>
    obtain ⟨u, us, gap, rfl, hg, hu⟩ := tiles.exists_head
    exact .cons_cons (follows_of_gap text hg hu) ih

theorem Tiles.le_line {p : Position} {cs : List Char} {ts : List Token} (h : Tiles p cs ts) :
    ∀ t ∈ ts, p.line ≤ t.line := by
  induction h with
  | @last p gap blank =>
    intro t ht
    rw [List.mem_singleton.mp ht, line, Position.line_advance]
    exact Nat.le_add_right _ _
  | @token p gap rest t ts blank _ _ place _ ih =>
    have hle : p.line ≤ t.line := by
      rw [line, place, Position.line_advance]
      exact Nat.le_add_right _ _
    refine List.forall_mem_cons.mpr ⟨hle, ?_⟩
    intro u hu
    have hu := ih u hu
    rw [Position.line_advance] at hu
    exact Nat.le_trans hle (Nat.le_of_add_right_le hu)

/-! ## A scan is lossless -/

/-- A scan is the tokens of its source in order and one token for the end.  Gaps and
texts make up the source, every token stands where the text before it ends, and two
tokens in a row follow each other. -/
theorem scan_lossless (source : String) :
    ∃ (pieces : List Piece) (last : List Char),
      scan source = pieces.map Piece.token ++ [⟨.endOfFile, "", .after source.toList⟩] ∧
      source.toList = pieces.flatMap Piece.chars ++ last ∧ IsGap last ∧
      (∀ q ∈ pieces, IsGap q.gap ∧ q.token.text ≠ "" ∧ q.token.kind ≠ .endOfFile) ∧
      (∀ before q after, pieces = before ++ q :: after →
        q.token.position = .after (before.flatMap Piece.chars ++ q.gap)) ∧
      (scan source).IsChain Follows := by
  have htiles := scan_tiles source
  obtain ⟨pieces, last, hts, hcut, hlast, hpieces, hplaces⟩ := htiles.exists_pieces
  rw [Position.advance_start] at hts
  refine ⟨pieces, last, hts, hcut, hlast, hpieces, ?_, htiles.isChain⟩
  intro before q after hq
  rw [hplaces before q after hq, Position.advance_start]

end Token

end HeaderLint
