import Mathlib.Data.List.Defs
import HeaderLint.Proofs.Text.Returns
import HeaderLint.Proofs.Token.Lookahead
import HeaderLint.Proofs.Token.Tiling

/-!
# Scanning with carriage returns

A carriage return before every line feed of a source changes few of its tokens
(`Token.scanFrom_withReturns`).  It is a blank, so between tokens it is skipped.

* A block comment takes a carriage return into each of its line ends.
* The lexeme of a line comment or directive takes the one at the end of its line.  A
  directive loses it again with the other blanks at its end.
* Numbers, words and marks hold no blanks, so they end where they did.
* A literal that is closed on its line ends where it did (`Token.isClosed`).  One that
  runs to a line end takes the carriage return there, and one that is continued by a
  backslash ends at its line: the backslash takes the carriage return with it, and not the
  line feed.
-/

namespace HeaderLint

open Text

/-! ## Places and fronts -/

/-- A carriage return before a line feed moves no place behind the line feed. -/
theorem Position.advance_withReturns (p : Position) (cs : List Char) :
    p.advance (withReturns cs) = p.advance cs := by
  induction cs generalizing p with
  | nil => rfl
  | cons c cs ih =>
    by_cases hc : c = '\n'
    · rw [hc, withReturns_newline, advance_cons, advance_cons, ih]
      rfl
    · rw [withReturns_cons hc, advance_cons, advance_cons, ih]

theorem frontLE_withReturns (cs : List Char) : FrontLE (withReturns cs) cs := by
  induction cs with
  | nil => exact .nil_left []
  | cons c cs ih =>
    by_cases hc : c = '\n'
    · rw [hc, withReturns_newline]
      exact .of_isBlank _ (by decide) _
    · rw [withReturns_cons hc]
      exact .cons c ih

/-- Behind a start of a text on its first line stands the rest with carriage returns. -/
theorem exists_rest_withReturns {ts cs : List Char} (hp : ts <+: cs) (h : '\n' ∉ ts) :
    ∃ rest, cs = ts ++ rest ∧ withReturns cs = ts ++ withReturns rest := by
  obtain ⟨rest, rfl⟩ := hp
  refine ⟨rest, rfl, ?_⟩
  rw [withReturns_append, withReturns_of_newline_not_mem h]

/-! ## Extents without blanks -/

/-- What the extent covers holds no blank. -/
def Solid (f : List Char → List Char) : Prop := ∀ cs, ∀ c ∈ f cs, isBlank c = false

theorem Solid.newline_not_mem {f : List Char → List Char} (h : Solid f) (cs : List Char) :
    '\n' ∉ f cs := fun hmem => absurd (h cs '\n' hmem) (by decide)

theorem solid_takeWhile {p : Char → Bool} (hp : ∀ c, p c = true → isBlank c = false) :
    Solid (List.takeWhile p) :=
  fun _ c hc => hp c (List.all_eq_true.mp List.all_takeWhile c hc)

theorem solid_followedBy {f g : List Char → List Char} (hf : Solid f) (hg : Solid g) :
    Solid fun cs => followedBy (f cs) g cs :=
  fun cs => List.forall_mem_append.mpr ⟨hf cs, hg _⟩

theorem solid_digits : Solid digits := solid_takeWhile fun _ h => isBlank_of_isDigit h

theorem solid_suffixLetters : Solid suffixLetters :=
  solid_takeWhile fun _ h => isBlank_of_isSuffixLetter h

theorem solid_wordTail : Solid wordTail := solid_takeWhile fun _ h => isBlank_of_isWordChar h

theorem solid_fraction : Solid fraction := by
  intro cs
  fun_cases fraction cs with
  | case1 cs => exact List.forall_mem_cons.mpr ⟨by decide, solid_digits cs⟩
  | case2 => exact List.forall_mem_nil _

theorem solid_exponentDigits : Solid exponentDigits := by
  intro cs
  fun_cases exponentDigits cs with
  | case1 => exact List.forall_mem_nil _
  | case2 c cs hdigit =>
    exact List.forall_mem_cons.mpr ⟨isBlank_of_isDigit hdigit, solid_digits cs⟩
  | case3 c cs _ hsign =>
    have hb : isBlank c = false := by rcases hsign.1 with rfl | rfl <;> decide
    exact List.forall_mem_cons.mpr ⟨hb, solid_digits cs⟩
  | case4 => exact List.forall_mem_nil _

theorem solid_exponent : Solid exponent := by
  intro cs
  fun_cases exponent cs with
  | case1 => exact List.forall_mem_nil _
  | case2 c cs hletter =>
    have hb : isBlank c = false := by rcases hletter.1 with rfl | rfl <;> decide
    exact List.forall_mem_cons.mpr ⟨hb, solid_exponentDigits cs⟩
  | case3 => exact List.forall_mem_nil _

theorem solid_decimalTail (c : Char) : Solid (decimalTail c) := by
  have hm : Solid fun cs => if c = '.' then digits cs else followedBy (digits cs) fraction cs := by
    by_cases hc : c = '.'
    · simp only [if_pos hc]
      exact solid_digits
    · simp only [if_neg hc]
      exact solid_followedBy solid_digits solid_fraction
  exact solid_followedBy (solid_followedBy hm solid_exponent) solid_suffixLetters

theorem solid_numberTail (c : Char) : Solid (numberTail c) := by
  intro cs
  rw [numberTail]
  by_cases hex : (hexadecimalTail? c cs).isSome = true
  · obtain ⟨rfl, x, ds, rfl, hx, hdigit⟩ := hexadecimalTail?_isSome_iff.mp hex
    have hb : isBlank x = false := by rcases hx with rfl | rfl <;> decide
    have hhex : Solid hexadecimals := solid_takeWhile fun _ h => isBlank_of_isHexDigit h
    rw [hexadecimalTail?_cons hx hdigit, Option.getD_some]
    exact List.forall_mem_cons.mpr ⟨hb, solid_followedBy hhex solid_suffixLetters ds⟩
  · rw [Option.not_isSome_iff_eq_none] at hex
    rw [hex, Option.getD_none]
    exact solid_decimalTail c cs

theorem Lexeme.solid_mark (c : Char) : Solid fun cs => (mark c cs).tail := by
  intro cs
  simp only [mark]
  split
  · next d h =>
    obtain ⟨-, hpair⟩ := Option.filter_eq_some_iff.mp h
    exact List.forall_mem_singleton.mpr (isBlank_of_mem_pairOperators hpair)
  · split
    · exact List.forall_mem_nil _
    · split <;> exact List.forall_mem_nil _

/-! ## Comments and literals -/

/-- The rest of a line takes the carriage return at its end. -/
theorem restOfLine_withReturns (cs : List Char) :
    ∃ ret, (ret = [] ∨ ret = ['\r']) ∧ restOfLine (withReturns cs) = restOfLine cs ++ ret := by
  induction cs with
  | nil => exact ⟨[], Or.inl rfl, rfl⟩
  | cons c cs ih =>
    by_cases hc : c = '\n'
    · rw [hc, withReturns_newline]
      exact ⟨['\r'], Or.inr rfl, rfl⟩
    · obtain ⟨ret, hret, hrest⟩ := ih
      have hcons : ∀ ds, restOfLine (c :: ds) = c :: restOfLine ds := fun ds =>
        List.takeWhile_cons_of_pos (bne_iff_ne.mpr hc)
      rw [withReturns_cons hc, hcons, hcons, hrest]
      exact ⟨ret, hret, rfl⟩

theorem blockCommentTail_withReturns (cs : List Char) :
    blockCommentTail (withReturns cs) = withReturns (blockCommentTail cs) := by
  fun_induction blockCommentTail cs with
  | case1 => rfl
  | case2 cs => rfl
  | case3 c cs hopen ih =>
    by_cases hc : c = '\n'
    · rw [hc, withReturns_newline, withReturns_newline, blockCommentTail_cons (by simp),
        blockCommentTail_cons (by simp), ih]
    · have hd : ¬(c = '*' ∧ (withReturns cs).head? = some '/') := by
        rw [head?_withReturns (by decide) (by decide)]
        rintro ⟨rfl, hhead⟩
        obtain ⟨ds, rfl⟩ := List.head?_eq_some_iff.mp hhead
        exact hopen ds rfl rfl
      rw [withReturns_cons hc, withReturns_cons hc, blockCommentTail_cons hd, ih]

/-- The rest of a literal after its opening quote ends with the closing quote, on the
same line.  A blank behind it does not belong to it. -/
def closesLiteral (quote : Char) (tail : List Char) : Bool :=
  literalTail quote (tail ++ [' ']) == tail && !tail.contains '\n'

theorem newline_not_mem_of_closesLiteral {quote : Char} {tail : List Char}
    (h : closesLiteral quote tail = true) : '\n' ∉ tail := by
  rw [closesLiteral, Bool.and_eq_true, Bool.not_eq_true', List.contains_eq_mem,
    decide_eq_false_iff_not] at h
  exact h.2

/-- Nothing behind a closed literal belongs to it. -/
theorem literalTail_of_closesLiteral {quote : Char} {tail : List Char}
    (h : closesLiteral quote tail = true) (ds : List Char) :
    literalTail quote (tail ++ ds) = tail := by
  rw [closesLiteral, Bool.and_eq_true, beq_iff_eq] at h
  have hstops : Stops ds [' '] := Or.inr ⟨by simp, by simp⟩
  exact literalTail_append hstops h.1

theorem literalTail_withReturns {quote : Char} {cs : List Char}
    (h : closesLiteral quote (literalTail quote cs) = true) :
    literalTail quote (withReturns cs) = literalTail quote cs := by
  obtain ⟨rest, -, hreturns⟩ := exists_rest_withReturns (literalTail_isPrefix quote cs)
    (newline_not_mem_of_closesLiteral h)
  rw [hreturns, literalTail_of_closesLiteral h]

/-! ## Lexemes -/

namespace Lexeme

/-- The second lexeme is the first with carriage returns. -/
inductive Returned : Lexeme → Lexeme → Prop where
  | same {l : Lexeme} (kind : l.kind.isComment = false) (plain : '\n' ∉ l.tail) : Returned l l
  | line {kind : TokenKind} {tail ret : List Char}
      (rest : kind = .lineComment ∨ kind = .directive) (plain : '\n' ∉ tail)
      (ret_eq : ret = [] ∨ ret = ['\r']) : Returned ⟨kind, tail⟩ ⟨kind, tail ++ ret⟩
  | block (tail : List Char) : Returned ⟨.blockComment, tail⟩ ⟨.blockComment, withReturns tail⟩

theorem Returned.kind_eq {l k : Lexeme} (h : Returned l k) : k.kind = l.kind := by
  cases h <;> rfl

/-- The lexeme goes on in the same text, but for a carriage return at the end of its line. -/
theorem Returned.tail_eq {l k : Lexeme} (h : Returned l k) :
    ∃ ret, (ret = [] ∨ ret = ['\r']) ∧ k.tail = withReturns l.tail ++ ret := by
  cases h with
  | same kind plain =>
    exact ⟨[], Or.inl rfl, by rw [withReturns_of_newline_not_mem plain, List.append_nil]⟩
  | @line _ tail ret _ plain ret_eq =>
    exact ⟨ret, ret_eq, by rw [withReturns_of_newline_not_mem plain]⟩
  | block tail => exact ⟨[], Or.inl rfl, (List.append_nil _).symm⟩

variable {lineStart : Bool} {c : Char} {cs : List Char}

theorem isComment_word (c : Char) (cs : List Char) : (word c cs).kind.isComment = false := by
  rcases kind_word c cs with h | h <;> rw [h] <;> rfl

theorem isComment_mark (c : Char) (cs : List Char) : (mark c cs).kind.isComment = false := by
  rcases kind_mark c cs with h | h | h <;> rw [h] <;> rfl

/-- The lexeme is no literal that reaches the end of its line. -/
def isClosed (l : Lexeme) (c : Char) : Bool :=
  l.kind != .stringLiteral && l.kind != .charLiteral || closesLiteral c l.tail

/-- A lexeme reads the same in front of carriage returns, but for those it takes. -/
theorem returned_read (hclosed : (read lineStart c cs).isClosed c = true) :
    Returned (read lineStart c cs) (read lineStart c (withReturns cs)) := by
  have hr := reads_read lineStart c cs
  generalize read lineStart c cs = l at hr hclosed
  cases hr with
  | lineComment slash next =>
    obtain ⟨ret, hret, hrest⟩ := restOfLine_withReturns cs
    have hnext := (head?_withReturns (by decide) (by decide)).mpr next
    rw [(Reads.lineComment slash hnext).read_eq, hrest]
    exact .line (Or.inl rfl) (newline_not_mem_restOfLine cs) hret
  | blockComment slash next =>
    obtain ⟨ds, rfl⟩ := List.head?_eq_some_iff.mp next
    rw [withReturns_cons (by decide), (Reads.blockComment slash (by rfl)).read_eq, List.tail_cons,
      List.tail_cons, blockCommentTail_withReturns, ← withReturns_cons (by decide)]
    exact .block _
  | directive sign start =>
    obtain ⟨ret, hret, hrest⟩ := restOfLine_withReturns cs
    rw [(Reads.directive sign start).read_eq, hrest]
    exact .line (Or.inr rfl) (newline_not_mem_restOfLine cs) hret
  | string quote =>
    rw [quote] at hclosed
    rw [(Reads.string quote).read_eq, literalTail_withReturns hclosed]
    exact .same rfl (newline_not_mem_of_closesLiteral hclosed)
  | character quote =>
    rw [quote] at hclosed
    rw [(Reads.character quote).read_eq, literalTail_withReturns hclosed]
    exact .same rfl (newline_not_mem_of_closesLiteral hclosed)
  | number starts =>
    have hplain := (solid_numberTail c).newline_not_mem cs
    obtain ⟨rest, hcut, hreturns⟩ := exists_rest_withReturns (numberTail_isPrefix c cs) hplain
    have htail : numberTail c (numberTail c cs ++ rest) = numberTail c cs := by rw [← hcut]
    have hstarts : StartsNumber c (numberTail c cs ++ withReturns rest) :=
      .append htail (hcut ▸ starts)
    rw [hreturns, (Reads.number hstarts).read_eq,
      local_numberTail c _ rest _ (frontLE_withReturns rest) htail]
    exact .same rfl hplain
  | word starts =>
    have hplain := solid_wordTail.newline_not_mem cs
    have hprefix : wordTail cs <+: cs := List.takeWhile_prefix _
    obtain ⟨rest, hcut, hreturns⟩ := exists_rest_withReturns hprefix hplain
    have htail : (word c (wordTail cs ++ rest)).tail = wordTail cs := by
      rw [← hcut]
      rfl
    rw [(Reads.word starts).read_eq, hreturns, word_append (frontLE_withReturns rest) htail,
      ← hcut]
    exact .same (isComment_word c cs) hplain
  | mark starts =>
    have hplain := (solid_mark c).newline_not_mem cs
    obtain ⟨rest, hcut, hreturns⟩ := exists_rest_withReturns (tail_mark_isPrefix c cs) hplain
    have hstarts : StartsMark lineStart c ((mark c cs).tail ++ withReturns rest) :=
      .append (frontLE_withReturns rest) (hcut ▸ starts)
    rw [hreturns, (Reads.mark hstarts).read_eq,
      mark_append (frontLE_withReturns rest) (by rw [← hcut]), ← hcut]
    exact .same (isComment_mark c cs) hplain

end Lexeme

/-! ## Tokens -/

namespace Token

/-- The token is no literal that reaches the end of its line. -/
def isClosed (t : Token) : Bool :=
  match t.text.toList with
  | [] => true
  | c :: tail => Lexeme.isClosed ⟨t.kind, tail⟩ c

theorem isClosed_lexeme {l : Lexeme} {c : Char} {p : Position}
    (h : isClosed ⟨l.kind, l.text c, p⟩ = true) : l.isClosed c = true := by
  by_cases hk : l.kind = .directive
  · rw [Lexeme.isClosed, hk]
    rfl
  · rw [isClosed, Lexeme.toList_text_of_ne_directive hk] at h
    exact h

/-- The second token is the first with carriage returns. -/
inductive Returned : Token → Token → Prop where
  | newline (p q : Position) : Returned ⟨.newline, "\n", p⟩ ⟨.newline, "\n", q⟩
  | endOfFile (p : Position) : Returned ⟨.endOfFile, "", p⟩ ⟨.endOfFile, "", p⟩
  | lexeme (p : Position) {c : Char} {l k : Lexeme} (plain : c ≠ '\n')
      (blank : isBlank c = false) (returned : l.Returned k) :
      Returned ⟨l.kind, l.text c, p⟩ ⟨k.kind, k.text c, p⟩

/-- A carriage return is skipped. -/
theorem scanFrom_return (p : Position) (lineStart : Bool) (cs : List Char) :
    scanFrom p lineStart ('\r' :: cs) = scanFrom (p.step '\r') lineStart cs :=
  scanFrom_blank p lineStart cs (by decide) (by decide)

theorem scanFrom_return_append {ret : List Char} (hret : ret = [] ∨ ret = ['\r']) (p : Position)
    (lineStart : Bool) (cs : List Char) :
    scanFrom p lineStart (ret ++ cs) = scanFrom (p.advance ret) lineStart cs := by
  rcases hret with rfl | rfl
  · rfl
  · exact scanFrom_return p lineStart cs

/-- With carriage returns a scan finds the same tokens, if no literal reaches the end of
its line. -/
theorem scanFrom_withReturns {p : Position} {lineStart : Bool} {cs : List Char}
    (h : ∀ t ∈ scanFrom p lineStart cs, t.isClosed = true) :
    List.Forall₂ Returned (scanFrom p lineStart cs)
      (scanFrom p lineStart (withReturns cs)) := by
  fun_induction scanFrom p lineStart cs with
  | case1 p lineStart =>
    rw [withReturns_nil, scanFrom_nil]
    exact .cons (.endOfFile p) .nil
  | case2 p lineStart cs ih =>
    rw [withReturns_newline, scanFrom_return, scanFrom_newline]
    exact .cons (.newline p _) (ih (List.forall_mem_cons.mp h).2)
  | case3 p lineStart c cs hn hb ih =>
    rw [withReturns_cons hn, scanFrom_blank p lineStart _ hn hb]
    exact ih h
  | case4 p lineStart c cs hn hb l ih =>
    rw [Bool.not_eq_true] at hb
    obtain ⟨hclosed, hrest⟩ := List.forall_mem_cons.mp h
    have hreturned : l.Returned (Lexeme.read lineStart c (withReturns cs)) :=
      Lexeme.returned_read (isClosed_lexeme hclosed)
    rw [withReturns_cons hn, scanFrom_lexeme p lineStart _ hn hb]
    generalize hk : Lexeme.read lineStart c (withReturns cs) = k at hreturned
    obtain ⟨ret, hret, htail⟩ := hreturned.tail_eq
    have hcut : l.tail ++ cs.drop l.tail.length = cs :=
      List.prefix_iff_eq_append.mp (Lexeme.tail_read_isPrefix lineStart c cs)
    have hcut' : k.tail ++ (withReturns cs).drop k.tail.length = withReturns cs :=
      List.prefix_iff_eq_append.mp (hk ▸ Lexeme.tail_read_isPrefix lineStart c (withReturns cs))
    generalize (withReturns cs).drop k.tail.length = behind at hcut' ⊢
    -- A carriage return that the lexeme takes is one that the scan without it skips.
    have hbehind : withReturns (cs.drop l.tail.length) = ret ++ behind := by
      have hall := congrArg withReturns hcut
      rwa [withReturns_append, ← hcut', htail, List.append_assoc,
        List.append_cancel_left_eq] at hall
    have hplace : p.advance (c :: k.tail) = (p.advance (c :: l.tail)).advance ret := by
      rw [htail, Position.advance_cons, Position.advance_append, Position.advance_withReturns]
      rfl
    refine .cons (.lexeme p hn hb hreturned) ?_
    rw [hreturned.kind_eq, hplace, ← scanFrom_return_append hret, ← hbehind]
    exact ih hrest

end Token

end HeaderLint
