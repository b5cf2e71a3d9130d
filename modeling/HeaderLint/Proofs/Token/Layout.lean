import HeaderLint.Proofs.Token.Lookahead
import HeaderLint.Proofs.Token.Tiling

/-!
# Laying tokens out again

`Token.layout` writes the texts of tokens with spaces up to the column of each.
`Token.scan_layout` says what this makes of a scan.  The layout is the source with
spaces in place of every gap (`Token.layoutFrom_pieces`), so it differs from the source
in blanks only (`Tiles.alike_layoutFrom`), and it scans to the same tokens.  A scan
thus forgets of its source only which blanks stand in the gaps.

The proof follows the scan.  A lexeme reads the same in front of the layout of the
rest as in front of the rest itself: the two are alike, so they show the same front
and stop alike.  A directive is the one lexeme that reaches into a gap.  It takes the
spaces at the end of its line in place of the blanks there, and its text loses both.
-/

namespace HeaderLint

open Text

/-! ## Texts that differ in their gaps -/

/-- Two characters are the same, or both are blanks that stay on the line. -/
def Alike (c d : Char) : Prop := c = d ∨ IsGap [c] ∧ IsGap [d]

theorem alike_refl (cs : List Char) : List.Forall₂ Alike cs cs := by
  induction cs with
  | nil => exact .nil
  | cons c cs ih => exact .cons (Or.inl rfl) ih

theorem alike_gap {gap : List Char} (hg : IsGap gap) :
    List.Forall₂ Alike gap (List.replicate gap.length ' ') := by
  induction gap with
  | nil => exact .nil
  | cons c gap ih =>
    obtain ⟨hc, hgap⟩ := isGap_cons.mp hg
    exact .cons (Or.inr ⟨isGap_cons.mpr ⟨hc, isGap_nil⟩, isGap_replicate_space 1⟩) (ih hgap)

theorem alike_append {as bs cs ds : List Char} (h : List.Forall₂ Alike as bs)
    (h' : List.Forall₂ Alike cs ds) : List.Forall₂ Alike (as ++ cs) (bs ++ ds) := by
  induction h with
  | nil => exact h'
  | cons h _ ih => exact .cons h ih

/-- A character that is not blank is alike to itself only. -/
theorem Alike.eq_of_not_isBlank {c d : Char} (h : Alike c d) (hb : isBlank d = false) : c = d := by
  rcases h with h | h
  · exact h
  · rw [(isGap_cons.mp h.2).1.1] at hb
    cases hb

theorem Alike.eq_newline_iff {c d : Char} (h : Alike c d) : c = '\n' ↔ d = '\n' := by
  rcases h with rfl | h
  · exact Iff.rfl
  · exact iff_of_false (isGap_cons.mp h.1).1.2 (isGap_cons.mp h.2).1.2

/-- Texts that differ in their gaps show the same front. -/
theorem frontLE_of_alike {cs ds : List Char} (h : List.Forall₂ Alike cs ds) : FrontLE ds cs := by
  induction h with
  | nil => exact .nil_left []
  | @cons c d cs ds hcd _ ih =>
    by_cases hb : isBlank d = true
    · exact .of_isBlank ds hb (c :: cs)
    · rw [hcd.eq_of_not_isBlank (Bool.eq_false_iff.mpr hb)]
      exact .cons d ih

/-- Texts that differ in their gaps stop alike. -/
theorem stops_of_alike {cs ds : List Char} (h : List.Forall₂ Alike cs ds) : Stops ds cs := by
  cases h with
  | nil => exact Or.inl rfl
  | cons hcd _ =>
    refine Or.inr ⟨List.cons_ne_nil _ _, fun hc => ?_⟩
    rw [List.head?_cons, Option.some_inj] at hc ⊢
    exact hcd.eq_newline_iff.mp hc

namespace Token

/-! ## The layout of tokens -/

/-- The texts of tokens from a place on, with spaces up to the column of each. -/
def layoutFrom (p : Position) : List Token → List Char
  | [] => []
  | t :: ts =>
    let text := List.replicate (t.column - p.column) ' ' ++ t.text.toList
    text ++ layoutFrom (p.advance text) ts

/-- The text that has the tokens at their columns. -/
def layout (tokens : List Token) : String := String.ofList (layoutFrom .start tokens)

/-- Spaces lead where a gap of the same length does. -/
theorem advance_spaces (p : Position) {gap : List Char} (hg : IsGap gap) :
    p.advance (List.replicate gap.length ' ') = p.advance gap := by
  rw [p.advance_gap hg, p.advance_gap (isGap_replicate_space _), List.length_replicate]

/-- A token behind a gap is laid out as spaces and its text. -/
theorem layoutFrom_cons {p : Position} {gap : List Char} {t : Token} (ts : List Token)
    (hg : IsGap gap) (ht : t.position = p.advance gap) :
    layoutFrom p (t :: ts) = List.replicate gap.length ' ' ++
      (t.text.toList ++ layoutFrom (t.position.advance t.text.toList) ts) := by
  have hpad : t.column - p.column = gap.length := by
    rw [column, ht, p.advance_gap hg, Nat.add_sub_cancel_left]
  rw [layoutFrom, hpad, List.append_assoc, Position.advance_append, advance_spaces p hg, ← ht]

/-- A token that stands at the place is laid out as its text. -/
theorem layoutFrom_self (p : Position) (kind : TokenKind) (text : String) (ts : List Token) :
    layoutFrom p (⟨kind, text, p⟩ :: ts) =
      text.toList ++ layoutFrom (p.advance text.toList) ts :=
  layoutFrom_cons (t := ⟨kind, text, p⟩) ts isGap_nil rfl

namespace Tiles

variable {p : Position} {cs : List Char} {ts : List Token}

/-- The layout of a tiling is its text with other gaps. -/
theorem alike_layoutFrom (h : Tiles p cs ts) : List.Forall₂ Alike cs (layoutFrom p ts) := by
  induction h with
  | last blank =>
    rw [layoutFrom_cons [] blank rfl]
    simpa [layoutFrom] using alike_gap blank
  | token blank _ _ place _ ih =>
    rw [layoutFrom_cons _ blank place]
    exact alike_append (alike_gap blank) (alike_append (alike_refl _) ih)

/-- A gap in front of a tiling is laid out as spaces. -/
theorem layoutFrom_gap {gap : List Char} (hg : IsGap gap) (h : Tiles (p.advance gap) cs ts) :
    layoutFrom p ts = List.replicate gap.length ' ' ++ layoutFrom (p.advance gap) ts := by
  obtain ⟨u, us, next, rfl, hnext, hu⟩ := h.exists_head
  have hu' : u.position = p.advance (gap ++ next) := by rw [hu, Position.advance_append]
  rw [layoutFrom_cons us hnext hu, layoutFrom_cons us (isGap_append.mpr ⟨hg, hnext⟩) hu',
    List.length_append, ← List.replicate_append_replicate, List.append_assoc]

end Tiles

/-- The text of a piece with spaces in its gap. -/
def Piece.spaced (q : Piece) : List Char :=
  List.replicate q.gap.length ' ' ++ q.token.text.toList

/-- Pieces are laid out with spaces in their gaps and at the end. -/
theorem layoutFrom_pieces {p : Position} {pieces : List Piece} {last : List Char}
    (hpieces : ∀ q ∈ pieces, IsGap q.gap) (hlast : IsGap last)
    (hplaces : ∀ before q after, pieces = before ++ q :: after →
      q.token.position = p.advance (before.flatMap Piece.chars ++ q.gap)) :
    layoutFrom p (pieces.map Piece.token ++
        [⟨.endOfFile, "", p.advance (pieces.flatMap Piece.chars ++ last)⟩]) =
      pieces.flatMap Piece.spaced ++ List.replicate last.length ' ' := by
  induction pieces generalizing p with
  | nil =>
    rw [List.map_nil, List.nil_append, layoutFrom_cons [] hlast rfl]
    simp [layoutFrom]
  | cons q pieces ih =>
    obtain ⟨hgap, hgaps⟩ := List.forall_mem_cons.mp hpieces
    have hplace : q.token.position = p.advance q.gap := hplaces [] q pieces rfl
    have hnext : q.token.position.advance q.token.text.toList = p.advance q.chars := by
      rw [hplace, ← Position.advance_append, Piece.chars]
    have hrest := ih (p := p.advance q.chars) hgaps fun before u after hu => by
      rw [hplaces (q :: before) u after (congrArg (q :: ·) hu), ← Position.advance_append,
        List.flatMap_cons, List.append_assoc]
    rw [← Position.advance_append, ← List.append_assoc, ← List.flatMap_cons] at hrest
    rw [List.map_cons, List.cons_append, layoutFrom_cons _ hgap hplace, hnext, hrest,
      List.flatMap_cons, Piece.spaced]
    simp only [List.append_assoc]

end Token

/-! ## Lexemes in front of a layout -/

namespace Lexeme

variable {lineStart : Bool} {c : Char} {cs gap ds : List Char}

/-- A directive in front of the end of a line stays the same when other blanks end it. -/
theorem read_directive_respaced (cs : List Char) (hsign : c = '#') (hstart : lineStart = true)
    (hd : ds = [] ∨ ds.head? = some '\n') (n : Nat) :
    read lineStart c (trimEnd (restOfLine cs) ++ List.replicate n ' ' ++ ds) =
      ⟨.directive, trimEnd (restOfLine cs) ++ List.replicate n ' '⟩ := by
  have hn : '\n' ∉ trimEnd (restOfLine cs) ++ List.replicate n ' ' := by
    obtain ⟨blanks, hcut, -⟩ := trimEnd_append_blanks (restOfLine cs)
    rw [List.mem_append, not_or]
    refine ⟨?_, (isGap_replicate_space n).newline_not_mem⟩
    intro h
    exact newline_not_mem_restOfLine cs (hcut ▸ List.mem_append_left _ h)
  rw [(Reads.directive hsign hstart).read_eq, restOfLine_append_of_newline_not_mem hn,
    restOfLine_eq_nil_iff.mpr hd, List.append_nil]

/-- A lexeme in front of a text that is alike to the rest has the same kind and the same
text.  It covers spaces in place of the gap that it covers in front of the rest. -/
theorem read_respaced (hb : isBlank c = false)
    (hcut : c :: (read lineStart c cs).tail = ((read lineStart c cs).text c).toList ++ gap)
    (hd : List.Forall₂ Alike (cs.drop (read lineStart c cs).tail.length) ds) :
    ∃ us, c :: us = ((read lineStart c cs).text c).toList ++ List.replicate gap.length ' ' ∧
      (read lineStart c (us ++ ds)).tail = us ∧
      (read lineStart c (us ++ ds)).kind = (read lineStart c cs).kind ∧
      (read lineStart c (us ++ ds)).text c = (read lineStart c cs).text c := by
  by_cases hk : (read lineStart c cs).kind = .directive
  · obtain ⟨hsign, hstart, hr⟩ := ruleOf_of_kind hk
    have htext := toList_text_of_directive hk hb
    rw [hr] at hd htext ⊢
    have hread := read_directive_respaced cs hsign hstart
      ((stops_of_alike hd).line (drop_restOfLine cs)) gap.length
    refine ⟨trimEnd (restOfLine cs) ++ List.replicate gap.length ' ', ?_, ?_⟩
    · rw [htext]
      rfl
    · rw [hread]
      refine ⟨rfl, rfl, String.toList_inj.mp ?_⟩
      rw [htext, toList_text_of_directive rfl hb, trimEnd_append_of_blank, trimEnd_trimEnd]
      exact fun c hc => (isGap_replicate_space _ c hc).1
  · -- The lexeme is its text, so the gap is empty.
    rw [toList_text_of_ne_directive hk, List.self_eq_append_right] at hcut
    have hcs := List.prefix_iff_eq_append.mp (tail_read_isPrefix lineStart c cs)
    refine ⟨(read lineStart c cs).tail, ?_, ?_⟩
    · rw [toList_text_of_ne_directive hk, hcut]
      simp
    · have hread : read lineStart c ((read lineStart c cs).tail ++ ds) = read lineStart c cs := by
        rw [read_append (frontLE_of_alike hd) (stops_of_alike hd) (by rw [hcs]), hcs]
      rw [hread]
      exact ⟨rfl, rfl, rfl⟩

end Lexeme

/-! ## Scanning a layout -/

namespace Token

theorem scanFrom_layoutFrom (p : Position) (lineStart : Bool) (cs : List Char) :
    scanFrom p lineStart (layoutFrom p (scanFrom p lineStart cs)) = scanFrom p lineStart cs := by
  fun_induction scanFrom p lineStart cs with
  | case1 p lineStart =>
    rw [layoutFrom_self]
    exact scanFrom_nil p lineStart
  | case2 p lineStart cs ih =>
    have htext : "\n".toList = ['\n'] := rfl
    rw [layoutFrom_self, htext, List.singleton_append, scanFrom_newline]
    exact congrArg _ ih
  | case3 p lineStart c cs hn hb ih =>
    have hgap : IsGap [c] := isGap_cons.mpr ⟨⟨hb, hn⟩, isGap_nil⟩
    have hstep : p.step ' ' = p.step c := advance_spaces p hgap
    rw [Tiles.layoutFrom_gap hgap (scanFrom_tiles (p.step c) lineStart cs)]
    calc scanFrom p lineStart (' ' :: layoutFrom (p.step c) (scanFrom (p.step c) lineStart cs))
        = scanFrom (p.step ' ') lineStart
            (layoutFrom (p.step c) (scanFrom (p.step c) lineStart cs)) :=
          scanFrom_blank p lineStart _ (by decide) (by decide)
      _ = scanFrom (p.step c) lineStart cs := by rw [hstep, ih]
  | case4 p lineStart c cs hn hb l ih =>
    rw [Bool.not_eq_true] at hb
    obtain ⟨gap, hgap, hcut⟩ := Lexeme.text_append_gap lineStart hb cs
    have htiles := scanFrom_tiles (p.advance (c :: l.tail)) (lineStart && l.kind.isComment)
      (cs.drop l.tail.length)
    obtain ⟨us, hus, htail, hkind, htext⟩ :=
      Lexeme.read_respaced hb hcut htiles.alike_layoutFrom
    have hplace : p.advance (c :: l.tail) = (p.advance (l.text c).toList).advance gap := by
      rw [hcut, Position.advance_append]
    have hspaces : p.advance (c :: us) = p.advance (c :: l.tail) := by
      rw [hus, Position.advance_append, advance_spaces _ hgap, hplace]
    generalize hts : scanFrom (p.advance (c :: l.tail)) (lineStart && l.kind.isComment)
      (cs.drop l.tail.length) = ts at *
    have hlayout : layoutFrom p (⟨l.kind, l.text c, p⟩ :: ts) =
        c :: (us ++ layoutFrom (p.advance (c :: l.tail)) ts) := by
      rw [layoutFrom_self, Tiles.layoutFrom_gap hgap (hplace ▸ htiles), ← hplace,
        ← List.append_assoc, ← hus, List.cons_append]
    rw [hlayout, scanFrom_lexeme p lineStart _ hn hb, htail, hkind, htext, hspaces, List.drop_left]
    exact congrArg _ ih

/-- A scan keeps its source up to the blanks in its gaps.  The source is the texts of the
tokens with gaps in front of each and at the end.  The layout has spaces in these gaps,
and scans to the same tokens. -/
theorem scan_layout (source : String) :
    (∃ (pieces : List Piece) (last : List Char),
      scan source = pieces.map Piece.token ++
        [⟨.endOfFile, "", Position.start.advance source.toList⟩] ∧
      (∀ q ∈ pieces, IsGap q.gap) ∧ IsGap last ∧
      source.toList = pieces.flatMap Piece.chars ++ last ∧
      (layout (scan source)).toList =
        pieces.flatMap Piece.spaced ++ List.replicate last.length ' ') ∧
    List.Forall₂ Alike source.toList (layout (scan source)).toList ∧
    scan (layout (scan source)) = scan source := by
  have htiles := scan_tiles source
  have hlayout : (layout (scan source)).toList = layoutFrom .start (scan source) :=
    String.toList_ofList
  refine ⟨?_, ?_, ?_⟩
  · obtain ⟨pieces, last, hscan, hcut, hlast, hpieces, hplaces⟩ := htiles.exists_pieces
    have hgaps : ∀ q ∈ pieces, IsGap q.gap := fun q hq => (hpieces q hq).1
    refine ⟨pieces, last, hscan, hgaps, hlast, hcut, ?_⟩
    rw [hlayout, hscan, hcut, layoutFrom_pieces hgaps hlast hplaces]
  · rw [hlayout]
    exact htiles.alike_layoutFrom
  · rw [scan, hlayout]
    exact scanFrom_layoutFrom .start true source.toList

end Token

end HeaderLint
