import Mathlib.Data.List.Induction
import HeaderLint.Proofs.Token.Place

/-!
# Where a line starts

A scan passes one bit from token to token: whether the line holds nothing but blanks and comments
so far.  The bit is read off the tokens before (`Token.startsLine`).  It says that they are all
comments since the last line feed (`Token.startsLine_iff`), and a line feed counts only as a token:
one inside a comment or a literal changes nothing.

The bit matters to the number sign alone (`Lexeme.read_of_ne_sign`).  Where it is set the sign
starts a directive, and elsewhere it is an operator by itself.  So the tokens before a number sign
tell what it is (`Token.coversLine_or_sign`).
-/

namespace HeaderLint

open Text

/-! ## The number sign -/

namespace Lexeme

variable {c : Char}

/-- Only a number sign is read differently where a line starts. -/
theorem read_of_ne_sign (h : c ≠ '#') (lineStart : Bool) (cs : List Char) :
    read lineStart c cs = read true c cs := by
  rw [read, read]
  simp only [h, false_and]

/-- A number sign that starts no line is an operator of one character. -/
theorem read_sign (cs : List Char) : read false '#' cs = ⟨.operator, []⟩ := by
  have hnone : (cs.head?.filter fun d => pairOperators.contains ('#', d)) = none :=
    Option.filter_eq_none_iff.mpr fun d _ => by simp [pairOperators]
  have hstarts : StartsMark false '#' cs :=
    { not_lineComment := by simp
      not_blockComment := by simp
      not_directive := by simp
      ne_quote := by simp
      ne_apostrophe := by simp
      not_number := fun h => h.ne (d := '#') (by simp) rfl
      not_word := by decide }
  rw [(Reads.mark hstarts).read_eq, mark, hnone]
  rfl

/-- The text of a lexeme starts with its first character. -/
theorem head?_toList_text {lineStart : Bool} (solid : isBlank c = false) (cs : List Char) :
    ((read lineStart c cs).text c).toList.head? = some c := by
  by_cases h : (read lineStart c cs).kind = .directive
  · rw [toList_text_of_directive h solid]
    rfl
  · rw [toList_text_of_ne_directive h]
    rfl

end Lexeme

namespace Token

/-! ## The bit behind tokens -/

/-- The bit behind a token: a line feed sets it, and a comment keeps it. -/
def stepStart (lineStart : Bool) (t : Token) : Bool :=
  t.kind == .newline || lineStart && t.kind.isComment

/-- The bit behind tokens. -/
def startsLine (lineStart : Bool) (ts : List Token) : Bool := ts.foldl stepStart lineStart

/-- The tokens behind the last line feed that is a token, latest first. -/
def sinceNewline (ts : List Token) : List Token :=
  ts.reverse.takeWhile fun t => t.kind != .newline

theorem startsLine_cons (lineStart : Bool) (t : Token) (ts : List Token) :
    startsLine lineStart (t :: ts) = startsLine (stepStart lineStart t) ts := rfl

theorem startsLine_concat (lineStart : Bool) (ts : List Token) (t : Token) :
    startsLine lineStart (ts ++ [t]) = stepStart (startsLine lineStart ts) t := List.foldl_append

theorem sinceNewline_concat (ts : List Token) (t : Token) :
    sinceNewline (ts ++ [t]) = if t.kind = .newline then [] else t :: sinceNewline ts := by
  rw [sinceNewline, List.reverse_append, List.reverse_singleton, List.singleton_append]
  by_cases h : t.kind = .newline
  · rw [if_pos h, List.takeWhile_cons_of_neg (by simp [h])]
  · rw [if_neg h, List.takeWhile_cons_of_pos (by simp [h]), sinceNewline]

/-- Tokens without a line feed among them join those before. -/
theorem sinceNewline_append {us : List Token} (h : ∀ u ∈ us, u.kind ≠ .newline) (ts : List Token) :
    sinceNewline (ts ++ us) = us.reverse ++ sinceNewline ts := by
  rw [sinceNewline, List.reverse_append, List.takeWhile_append_of_pos, sinceNewline]
  intro u hu
  exact bne_iff_ne.mpr (h u (List.mem_reverse.mp hu))

/-- A line starts where all tokens since the last line feed are comments. -/
theorem startsLine_iff (ts : List Token) :
    startsLine true ts = true ↔ ∀ u ∈ sinceNewline ts, u.kind.isComment = true := by
  induction ts using List.reverseRecOn with
  | nil => simp [startsLine, sinceNewline]
  | append_singleton ts t ih =>
    rw [startsLine_concat, sinceNewline_concat, stepStart]
    by_cases h : t.kind = .newline
    · simp [h]
    · rw [if_neg h, List.forall_mem_cons, ← ih, Bool.or_eq_true, Bool.and_eq_true, and_comm]
      simp [h]

/-! ## The rest of a scan -/

/-- The rest of a scan is the scan of the rest, with the bit behind the tokens before it. -/
theorem exists_cut_of_scanFrom_eq_append {p : Position} {lineStart : Bool} {cs : List Char}
    {before after : List Token} (h : scanFrom p lineStart cs = before ++ after)
    (hafter : after ≠ []) :
    ∃ front rest, cs = front ++ rest ∧
      after = scanFrom (p.advance front) (startsLine lineStart before) rest := by
  fun_induction scanFrom p lineStart cs generalizing before with
  | case1 p lineStart =>
    cases before with
    | nil => exact ⟨[], [], rfl, h.symm.trans (scanFrom_nil p lineStart).symm⟩
    | cons b before => exact absurd (List.append_eq_nil_iff.mp (List.cons.inj h).2.symm).2 hafter
  | case2 p lineStart cs ih =>
    cases before with
    | nil => exact ⟨[], _, rfl, h.symm.trans (scanFrom_newline p lineStart cs).symm⟩
    | cons b before =>
      obtain ⟨rfl, hrest⟩ := List.cons.inj h
      obtain ⟨front, rest, rfl, hscan⟩ := ih hrest
      exact ⟨'\n' :: front, rest, rfl, hscan⟩
  | case3 p lineStart c cs hn hb ih =>
    obtain ⟨front, rest, rfl, hscan⟩ := ih h
    exact ⟨c :: front, rest, rfl, hscan⟩
  | case4 p lineStart c cs hn hb l =>
    rename_i ih
    rw [Bool.not_eq_true] at hb
    cases before with
    | nil => exact ⟨[], _, rfl, h.symm.trans (scanFrom_lexeme p lineStart cs hn hb).symm⟩
    | cons b before =>
      obtain ⟨rfl, hrest⟩ := List.cons.inj h
      obtain ⟨front, rest, hcut, hscan⟩ := ih hrest
      have hkind : (l.kind == TokenKind.newline) = false :=
        beq_eq_false_iff_ne.mpr (Lexeme.kind_read_ne lineStart c cs).1
      refine ⟨c :: l.tail ++ front, rest, ?_, ?_⟩
      · rw [List.append_assoc, ← hcut, List.cons_append,
          List.prefix_iff_eq_append.mp (Lexeme.tail_read_isPrefix lineStart c cs)]
      · rw [Position.advance_append, startsLine_cons, stepStart, hkind, Bool.false_or]
        exact hscan

/-- The first token of a scan is a line feed, the end, or a lexeme behind a gap. -/
theorem exists_lexeme_of_scanFrom_eq_cons {p : Position} {lineStart : Bool} {cs : List Char}
    {t : Token} {ts : List Token} (h : scanFrom p lineStart cs = t :: ts)
    (hnewline : t.kind ≠ .newline) (hend : t.kind ≠ .endOfFile) :
    ∃ gap c ds, cs = gap ++ c :: ds ∧ isBlank c = false ∧
      t = ⟨(Lexeme.read lineStart c ds).kind, (Lexeme.read lineStart c ds).text c,
        p.advance gap⟩ ∧
      ts = scanFrom (p.advance (gap ++ c :: (Lexeme.read lineStart c ds).tail))
        (lineStart && (Lexeme.read lineStart c ds).kind.isComment)
        (ds.drop (Lexeme.read lineStart c ds).tail.length) := by
  fun_induction scanFrom p lineStart cs with
  | case1 p lineStart =>
    obtain ⟨rfl, -⟩ := List.cons.inj h
    exact absurd rfl hend
  | case2 p lineStart cs =>
    obtain ⟨rfl, -⟩ := List.cons.inj h
    exact absurd rfl hnewline
  | case3 p lineStart c cs hn hb ih =>
    obtain ⟨gap, d, ds, rfl, hsolid, ht, hts⟩ := ih h
    exact ⟨c :: gap, d, ds, rfl, hsolid, ht, hts⟩
  | case4 p lineStart c cs hn hb =>
    obtain ⟨rfl, hts⟩ := List.cons.inj h
    exact ⟨[], c, cs, rfl, Bool.not_eq_true _ ▸ hb, rfl, hts.symm⟩

/-! ## Number signs in a source -/

/-- A line feed and the end do not start with a number sign. -/
theorem IsReadOff.kind_ne_of_sign {t : Token} {rest : List Char} (h : t.IsReadOff rest)
    (hsign : t.text.toList.head? = some '#') : t.kind ≠ .newline ∧ t.kind ≠ .endOfFile := by
  cases h with
  | endOfFile _ text => simp [text] at hsign
  | newline _ text => simp [text] at hsign
  | lexeme lineStart cs _ kind =>
    rw [kind]
    exact Lexeme.kind_read_ne lineStart _ cs

/-- The token is a directive that goes up to the end of its line.  Its text is the rest of the line
without the blanks at its end, and behind the line the scan goes on where no line starts. -/
structure CoversLine {source : String} {t : Token} (place : Place source t) (after : List Token) :
    Prop where
  kind : t.kind = .directive
  text : t.text.toList = trimEnd (restOfLine place.rest)
  after : after = scanFrom (.after (place.before ++ restOfLine place.rest)) false
    (place.rest.drop (restOfLine place.rest).length)

/-- A token that starts with a number sign is a directive if a line starts there, and the operator
otherwise. -/
theorem coversLine_or_sign {source : String} {before after : List Token} {t : Token}
    (hscan : scan source = before ++ t :: after) (hsign : t.text.toList.head? = some '#') :
    (startsLine true before = true ∧ ∃ place : Place source t, CoversLine place after) ∨
      startsLine true before = false ∧ t.kind = .operator ∧ t.text = "#" := by
  have hmem : t ∈ scan source := hscan ▸ List.mem_append_right before List.mem_cons_self
  obtain ⟨spot⟩ := nonempty_place hmem
  obtain ⟨hnewline, hend⟩ := (spot.isReadOff hmem).kind_ne_of_sign hsign
  obtain ⟨front, rest, hcut, hrest⟩ :=
    exists_cut_of_scanFrom_eq_append hscan (List.cons_ne_nil t after)
  obtain ⟨gap, c, cs, rfl, hsolid, ht, hafter⟩ :=
    exists_lexeme_of_scanFrom_eq_cons hrest.symm hnewline hend
  rw [ht, Lexeme.head?_toList_text hsolid] at hsign
  obtain rfl := Option.some.inj hsign
  rw [Position.advance_start, Position.advance_after] at ht hafter
  cases hstart : startsLine true before with
  | true =>
    have hread := (Lexeme.Reads.directive rfl rfl : Lexeme.Reads true '#' cs _).read_eq
    rw [hstart, hread] at ht hafter
    subst ht
    refine .inl ⟨rfl, ⟨front ++ gap, '#' :: cs, ?_, rfl⟩, rfl, ?_, ?_⟩
    · rw [hcut, List.append_assoc]
    · rw [Lexeme.toList_text_of_directive rfl hsolid]
      exact (trimEnd_cons hsolid _).symm
    · rw [hafter, List.append_assoc]
      rfl
  | false =>
    rw [hstart, Lexeme.read_sign] at ht
    subst ht
    exact .inr ⟨rfl, rfl, rfl⟩

end Token

end HeaderLint
