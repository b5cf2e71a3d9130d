import HeaderLint.Proofs.Text.Longest
import HeaderLint.Proofs.Token.Lookahead
import HeaderLint.Proofs.Token.Place

/-!
# Numbers, words and marks are maximal

The lexeme of a number, a word or a mark is the longest start of the text that has its form.  For a
number the form is a grammar (`IsNumber`): a hexadecimal number, or a mantissa with an exponent if
there is one, and suffix letters behind either.

The scan reads a number part by part and never goes back.  That is no loss: whatever continues a
mantissa is a digit or a full stop, which starts no exponent, and an exponent that is incomplete is
none.  The suffix letters may be hexadecimal digits too, but a run that gives some of them up to the
suffix covers no more.
-/

namespace HeaderLint

open Text

/-! ## The grammar of numbers -/

/-- The digits of a number up to its exponent. -/
inductive IsMantissa : List Char → Prop
  | whole {ds : List Char} (ne_nil : ds ≠ []) (digits : AllOf Char.isDigit ds) : IsMantissa ds
  | point {ds fs : List Char} (ne_nil : ds ≠ []) (digits : AllOf Char.isDigit ds)
      (fraction : AllOf Char.isDigit fs) : IsMantissa (ds ++ '.' :: fs)
  | fraction {fs : List Char} (ne_nil : fs ≠ []) (digits : AllOf Char.isDigit fs) :
      IsMantissa ('.' :: fs)

/-- An exponent, or nothing. -/
inductive IsExponent : List Char → Prop
  | none : IsExponent []
  | some {e : Char} {sign ds : List Char} (letter : e = 'e' ∨ e = 'E')
      (isSign : sign = [] ∨ sign = ['+'] ∨ sign = ['-']) (ne_nil : ds ≠ [])
      (digits : AllOf Char.isDigit ds) : IsExponent (e :: (sign ++ ds))

/-- A number. -/
inductive IsNumber : List Char → Prop
  | hexadecimal {x : Char} {hs ss : List Char} (letter : x = 'x' ∨ x = 'X') (ne_nil : hs ≠ [])
      (digits : AllOf isHexDigit hs) (suffix : AllOf isSuffixLetter ss) :
      IsNumber ('0' :: x :: (hs ++ ss))
  | decimal {ms es ss : List Char} (mantissa : IsMantissa ms) (exponent : IsExponent es)
      (suffix : AllOf isSuffixLetter ss) : IsNumber (ms ++ (es ++ ss))

/-! ## The mantissa -/

theorem IsMantissa.isDigit_or_dot {cs : List Char} (h : IsMantissa cs) :
    ∀ c ∈ cs, c.isDigit = true ∨ c = '.' := by
  intro c hc
  cases h with
  | whole _ digits => exact .inl (digits c hc)
  | point _ digits fraction =>
    rcases List.mem_append.mp hc with hc | hc
    · exact .inl (digits c hc)
    · rcases List.mem_cons.mp hc with rfl | hc
      · exact .inr rfl
      · exact .inl (fraction c hc)
  | fraction _ digits =>
    rcases List.mem_cons.mp hc with rfl | hc
    · exact .inr rfl
    · exact .inl (digits c hc)

/-- A full stop and digits, or nothing. -/
def IsFraction (cs : List Char) : Prop := cs = [] ∨ ∃ fs, cs = '.' :: fs ∧ AllOf Char.isDigit fs

theorem isLongest_fraction (cs : List Char) : IsLongest IsFraction cs (fraction cs) := by
  fun_cases fraction cs with
  | case1 cs =>
    refine ((isLongest_takeWhile Char.isDigit cs).cons '.').or (Q := (· = [])) ?_ |>.congr ?_
    · rintro us rfl -
      exact Nat.zero_le _
    · exact fun us _ => or_comm
  | case2 cs hdot =>
    refine ⟨.inl rfl, List.nil_prefix, ?_⟩
    rintro other (rfl | ⟨fs, rfl, -⟩) ⟨rest, rfl⟩
    · exact Nat.le_refl _
    · exact absurd rfl (hdot (fs ++ rest))

/-- The rest of a mantissa after its first character. -/
def mantissaTail (c : Char) (cs : List Char) : List Char :=
  if c = '.' then digits cs else followedBy (digits cs) fraction cs

theorem isLongest_mantissa {c : Char} {cs : List Char} (h : Lexeme.StartsNumber c cs) :
    IsLongest IsMantissa (c :: cs) (c :: mantissaTail c cs) := by
  by_cases hc : c = '.'
  · subst hc
    rcases h with h | ⟨-, hdigit⟩
    · exact absurd h (by decide)
    rw [mantissaTail, if_pos rfl]
    have hnotDigit : ∀ ds : List Char, ds ≠ [] → AllOf Char.isDigit ds → ¬ds <+: '.' :: cs := by
      rintro ds hne hdigits ⟨rest, hcut⟩
      obtain ⟨d, ds, rfl⟩ := List.exists_cons_of_ne_nil hne
      obtain ⟨rfl, -⟩ := List.cons.inj hcut
      exact absurd (hdigits '.' List.mem_cons_self) (by decide)
    refine ((isLongest_takeWhile_of_ne_nil (takeWhile_ne_nil hdigit)).cons '.').congr ?_
    intro us hus
    constructor
    · rintro ⟨fs, rfl, hne, hdigits⟩
      exact .fraction hne hdigits
    · rintro (⟨hne, hdigits⟩ | ⟨hne, hdigits, -⟩ | ⟨hne, hdigits⟩)
      · exact absurd hus (hnotDigit _ hne hdigits)
      · exact absurd ((List.prefix_append _ _).trans hus) (hnotDigit _ hne hdigits)
      · exact ⟨_, rfl, hne, hdigits⟩
  · have hdigit : c.isDigit = true := h.resolve_right fun hdot => hc hdot.1
    rw [mantissaTail, if_neg hc]
    have hrun : (c :: cs).takeWhile Char.isDigit = c :: digits cs :=
      List.takeWhile_cons_of_pos hdigit
    have hdigits := isLongest_takeWhile_of_ne_nil (hrun ▸ List.cons_ne_nil c (digits cs))
    rw [hrun] at hdigits
    refine (hdigits.append (isLongest_fraction (cs.drop (digits cs).length)) ?_).congr ?_
    · rintro us d vs ws - ⟨-, hrun⟩ (hnil | ⟨fs, hdot, -⟩)
      · cases hnil
      · obtain ⟨rfl, -⟩ := List.cons.inj hdot
        exact absurd (hrun '.' (by simp)) (by decide)
    · intro us hus
      constructor
      · rintro ⟨ds, fs, rfl, ⟨hne, hds⟩, rfl | ⟨fs, rfl, hfs⟩⟩
        · rw [List.append_nil]
          exact .whole hne hds
        · exact .point hne hds hfs
      · rintro (⟨hne, hds⟩ | ⟨hne, hds, hfs⟩ | ⟨hne, hds⟩)
        · exact ⟨_, [], (List.append_nil _).symm, ⟨hne, hds⟩, .inl rfl⟩
        · exact ⟨_, _, rfl, ⟨hne, hds⟩, .inr ⟨_, rfl, hfs⟩⟩
        · exact absurd (List.cons_prefix_cons.mp hus).1.symm hc

/-! ## The exponent -/

/-- Digits with a sign, if there is one. -/
def IsSigned (cs : List Char) : Prop :=
  ∃ sign ds, cs = sign ++ ds ∧ (sign = [] ∨ sign = ['+'] ∨ sign = ['-']) ∧ ds ≠ [] ∧
    AllOf Char.isDigit ds

theorem isSigned_cons_iff {c : Char} {cs : List Char} :
    IsSigned (c :: cs) ↔
      AllOf Char.isDigit cs ∧ (c.isDigit = true ∨ (c = '+' ∨ c = '-') ∧ cs ≠ []) := by
  constructor
  · rintro ⟨sign, ds, hcut, rfl | rfl | rfl, hne, hdigits⟩
    · subst hcut
      exact ⟨fun d hd => hdigits d (List.mem_cons_of_mem c hd), .inl (hdigits c List.mem_cons_self)⟩
    · obtain ⟨rfl, rfl⟩ := List.cons.inj hcut
      exact ⟨hdigits, .inr ⟨.inl rfl, hne⟩⟩
    · obtain ⟨rfl, rfl⟩ := List.cons.inj hcut
      exact ⟨hdigits, .inr ⟨.inr rfl, hne⟩⟩
  · rintro ⟨hdigits, hc | ⟨hc, hne⟩⟩
    · exact ⟨[], c :: cs, rfl, .inl rfl, List.cons_ne_nil c cs,
        List.forall_mem_cons.mpr ⟨hc, hdigits⟩⟩
    · exact ⟨[c], cs, rfl, by rcases hc with rfl | rfl <;> simp, hne, hdigits⟩

theorem isSigned_exponentDigits {cs : List Char} (h : exponentDigits cs ≠ []) :
    IsSigned (exponentDigits cs) := by
  revert h
  fun_cases exponentDigits cs with
  | case1 => exact fun h => absurd rfl h
  | case2 c cs hc => exact fun _ => isSigned_cons_iff.mpr ⟨allOf_takeWhile _ cs, .inl hc⟩
  | case3 c cs _ hc =>
    exact fun _ => isSigned_cons_iff.mpr ⟨allOf_takeWhile _ cs, .inr ⟨hc.1, takeWhile_ne_nil hc.2⟩⟩
  | case4 => exact fun h => absurd rfl h

/-- Signed digits at the front are found, and no more of them are there. -/
theorem length_le_exponentDigits {us cs : List Char} (hus : IsSigned us) (hfront : us <+: cs) :
    us.length ≤ (exponentDigits cs).length := by
  cases us with
  | nil => exact Nat.zero_le _
  | cons c us =>
    obtain ⟨hdigits, hc⟩ := isSigned_cons_iff.mp hus
    obtain ⟨rest, rfl⟩ := hfront
    have hfound : exponentDigits (c :: (us ++ rest)) = c :: digits (us ++ rest) := by
      rw [exponentDigits]
      by_cases hdigit : c.isDigit = true
      · rw [if_pos hdigit]
      · obtain ⟨hsign, hne⟩ := hc.resolve_left hdigit
        obtain ⟨d, us, rfl⟩ := List.exists_cons_of_ne_nil hne
        have hd : (d :: us ++ rest).head?.any Char.isDigit = true := hdigits d List.mem_cons_self
        rw [if_neg hdigit, if_pos ⟨hsign, hd⟩]
    rw [List.cons_append, hfound]
    exact Nat.succ_le_succ (hdigits.isPrefix_takeWhile (List.prefix_append us rest)).length_le

theorem isExponent_cons_iff {c : Char} {cs : List Char} :
    IsExponent (c :: cs) ↔ (c = 'e' ∨ c = 'E') ∧ IsSigned cs := by
  constructor
  · rintro (_ | ⟨letter, isSign, hne, hdigits⟩)
    exact ⟨letter, _, _, rfl, isSign, hne, hdigits⟩
  · rintro ⟨letter, sign, ds, rfl, isSign, hne, hdigits⟩
    exact .some letter isSign hne hdigits

theorem isLongest_exponent (cs : List Char) : IsLongest IsExponent cs (exponent cs) := by
  refine ⟨?_, exponent_isPrefix cs, ?_⟩
  · fun_cases exponent cs with
    | case1 => exact .none
    | case2 c cs h => exact isExponent_cons_iff.mpr ⟨h.1, isSigned_exponentDigits h.2⟩
    | case3 => exact .none
  · intro us hus hfront
    cases us with
    | nil => exact Nat.zero_le _
    | cons c us =>
      obtain ⟨hc, hsigned⟩ := isExponent_cons_iff.mp hus
      obtain ⟨rest, rfl⟩ := hfront
      have hle := length_le_exponentDigits hsigned (List.prefix_append us rest)
      have hne : exponentDigits (us ++ rest) ≠ [] := by
        intro hnil
        rw [hnil, List.length_nil, Nat.le_zero, List.length_eq_zero_iff] at hle
        obtain ⟨sign, ds, hcut, -, hds, -⟩ := hsigned
        rw [hle] at hcut
        exact hds (List.append_eq_nil_iff.mp hcut.symm).2
      rw [List.cons_append, exponent, if_pos ⟨hc, hne⟩]
      exact Nat.succ_le_succ hle

/-! ## The number -/

/-- A decimal number. -/
abbrev IsDecimal : List Char → Prop := Then (Then IsMantissa IsExponent) (AllOf isSuffixLetter)

theorem isLongest_decimal {c : Char} {cs : List Char} (h : Lexeme.StartsNumber c cs) :
    IsLongest IsDecimal (c :: cs) (c :: decimalTail c cs) := by
  have hmantissa := isLongest_mantissa h
  refine ((hmantissa.append (isLongest_exponent (cs.drop (mantissaTail c cs).length)) ?_).append_run
    (p := isSuffixLetter))
  intro us d vs ws _ hvs hexponent
  have hd := hvs.isDigit_or_dot d (by simp)
  rcases (isExponent_cons_iff.mp hexponent).1 with rfl | rfl <;> exact absurd hd (by decide)

/-- A hexadecimal number. -/
def IsHexadecimal (cs : List Char) : Prop :=
  ∃ x hs ss, (x = 'x' ∨ x = 'X') ∧ hs ≠ [] ∧ AllOf isHexDigit hs ∧ AllOf isSuffixLetter ss ∧
    cs = '0' :: x :: (hs ++ ss)

theorem isNumber_iff {cs : List Char} : IsNumber cs ↔ IsHexadecimal cs ∨ IsDecimal cs := by
  constructor
  · rintro (⟨letter, hne, hdigits, hsuffix⟩ | ⟨hmantissa, hexponent, hsuffix⟩)
    · exact .inl ⟨_, _, _, letter, hne, hdigits, hsuffix, rfl⟩
    · exact .inr ⟨_, _, (List.append_assoc ..).symm, ⟨_, _, rfl, hmantissa, hexponent⟩, hsuffix⟩
  · rintro (⟨x, hs, ss, letter, hne, hdigits, hsuffix, rfl⟩ |
      ⟨_, ss, rfl, ⟨ms, es, rfl, hmantissa, hexponent⟩, hsuffix⟩)
    · exact .hexadecimal letter hne hdigits hsuffix
    · rw [List.append_assoc]
      exact .decimal hmantissa hexponent hsuffix

theorem isLongest_hexadecimal {x : Char} {cs : List Char} (hx : x = 'x' ∨ x = 'X')
    (hd : cs.head?.any isHexDigit = true) :
    IsLongest IsHexadecimal ('0' :: x :: cs)
      ('0' :: x :: followedBy (hexadecimals cs) suffixLetters cs) := by
  have hdigits := isLongest_takeWhile_of_ne_nil (takeWhile_ne_nil hd)
  refine ((hdigits.append_run (p := isSuffixLetter)).cons x |>.cons '0').congr ?_
  intro us hus
  constructor
  · rintro ⟨_, rfl, _, rfl, hs, ss, rfl, ⟨hne, hhs⟩, hss⟩
    exact ⟨x, hs, ss, hx, hne, hhs, hss, rfl⟩
  · rintro ⟨y, hs, ss, -, hne, hhs, hss, rfl⟩
    obtain ⟨-, hrest⟩ := List.cons_prefix_cons.mp hus
    obtain ⟨rfl, -⟩ := List.cons_prefix_cons.mp hrest
    exact ⟨_, rfl, _, rfl, hs, ss, rfl, ⟨hne, hhs⟩, hss⟩

theorem decimalTail_of_letter {x : Char} (hx : x = 'x' ∨ x = 'X') (cs : List Char) :
    decimalTail '0' (x :: cs) = [] := by
  rcases hx with rfl | rfl <;> rfl

/-- The number at the front of a text is the longest. -/
theorem isLongest_number {c : Char} {cs : List Char} (h : Lexeme.StartsNumber c cs) :
    IsLongest IsNumber (c :: cs) (c :: numberTail c cs) := by
  have hdecimal := isLongest_decimal h
  by_cases hhex : (hexadecimalTail? c cs).isSome = true
  · obtain ⟨rfl, x, ds, rfl, hx, hd⟩ := hexadecimalTail?_isSome_iff.mp hhex
    rw [numberTail, hexadecimalTail?_cons hx hd, Option.getD_some]
    refine ((isLongest_hexadecimal hx hd).or ?_).congr fun _ _ => isNumber_iff.symm
    intro us hus hfront
    have hle := hdecimal.length_le us hus hfront
    rw [decimalTail_of_letter hx] at hle
    exact Nat.le_trans hle (Nat.succ_le_succ (Nat.zero_le _))
  · rw [numberTail, Option.not_isSome_iff_eq_none.mp hhex, Option.getD_none]
    refine hdecimal.congr fun us hus => ?_
    rw [isNumber_iff, or_iff_right]
    rintro ⟨x, hs, ss, hx, hne, hhs, -, rfl⟩
    obtain ⟨rfl, rest, rfl⟩ := List.cons_prefix_cons.mp hus
    obtain ⟨d, hs, rfl⟩ := List.exists_cons_of_ne_nil hne
    exact hhex (hexadecimalTail?_isSome_iff.mpr ⟨rfl, x, _, rfl, hx, hhs d List.mem_cons_self⟩)

/-! ## Words and marks -/

theorem isLongest_word {c : Char} {cs : List Char} (h : isWordChar c = true) :
    IsLongest (AllOf isWordChar) (c :: cs) (c :: wordTail cs) := by
  have hrun : (c :: cs).takeWhile isWordChar = c :: wordTail cs := List.takeWhile_cons_of_pos h
  exact hrun ▸ isLongest_takeWhile isWordChar (c :: cs)

/-- The entries of the tables of marks, by the kind of their tokens. -/
inductive IsMark : TokenKind → List Char → Prop
  | pair {c d : Char} (h : (c, d) ∈ pairOperators) : IsMark .operator [c, d]
  | operator {c : Char} (h : c ∈ operatorChars) : IsMark .operator [c]
  | punctuation {c : Char} (h : c ∈ punctuationChars) : IsMark .punctuation [c]

theorem IsMark.length_le {kind : TokenKind} {cs : List Char} (h : IsMark kind cs) :
    cs.length ≤ 2 := by
  cases h <;> simp

/-- A mark that is in a table is the longest entry. -/
theorem isLongest_mark {c : Char} {cs : List Char} (h : (Lexeme.mark c cs).kind ≠ .unknown) :
    IsMark (Lexeme.mark c cs).kind (c :: (Lexeme.mark c cs).tail) ∧
      IsLongest (fun us => ∃ kind, IsMark kind us) (c :: cs) (c :: (Lexeme.mark c cs).tail) := by
  -- Where no pair starts, no entry at the front is longer than one character.
  have hsingle : (cs.head?.filter fun d => pairOperators.contains (c, d)) = none →
      ∀ {kind}, IsMark kind [c] → IsLongest (fun us => ∃ kind, IsMark kind us) (c :: cs) [c] := by
    intro hnone kind hmark
    refine ⟨⟨kind, hmark⟩, ⟨cs, rfl⟩, ?_⟩
    rintro us ⟨-, hpair | _ | _⟩ hfront
    · obtain ⟨rfl, rest, rfl⟩ := List.cons_prefix_cons.mp hfront
      rw [List.head?_append, List.head?_cons, Option.some_or, Option.filter_some,
        if_pos (List.contains_iff_mem.mpr hpair)] at hnone
      cases hnone
    · exact Nat.le_refl 1
    · exact Nat.le_refl 1
  revert h
  fun_cases Lexeme.mark c cs with
  | case1 d hd =>
    intro _
    obtain ⟨hhead, hpair⟩ := Option.filter_eq_some_iff.mp hd
    obtain ⟨rest, rfl⟩ := List.head?_eq_some_iff.mp hhead
    have hmark : IsMark .operator [c, d] := .pair (List.contains_iff_mem.mp hpair)
    exact ⟨hmark, ⟨_, hmark⟩, ⟨rest, rfl⟩, fun us hus _ => hus.elim fun _ => IsMark.length_le⟩
  | case2 hnone hop =>
    intro _
    have hmark : IsMark .operator [c] := .operator (List.contains_iff_mem.mp hop)
    exact ⟨hmark, hsingle hnone hmark⟩
  | case3 hnone _ hpunct =>
    intro _
    have hmark : IsMark .punctuation [c] := .punctuation (List.contains_iff_mem.mp hpunct)
    exact ⟨hmark, hsingle hnone hmark⟩
  | case4 => exact fun h => absurd rfl h

/-! ## Tokens -/

/-- The text of a number, a word or a mark is the longest of its form that the text starts with. -/
structure IsMaximal (t : Token) (rest : List Char) : Prop where
  number : ∀ c cs, rest = c :: cs → Lexeme.StartsNumber c cs →
    t.kind = .number ∧ IsLongest IsNumber rest t.text.toList
  word : ∀ c cs, rest = c :: cs → isWordStart c = true →
    t.kind = (if t.text ∈ keywords then .keyword else .identifier) ∧
      IsLongest (AllOf isWordChar) rest t.text.toList
  mark : t.kind = .operator ∨ t.kind = .punctuation →
    IsMark t.kind t.text.toList ∧
      IsLongest (fun us => ∃ kind, IsMark kind us) rest t.text.toList

namespace Token

/-- A token is read by the rule that fits the text in front of it. -/
theorem IsReadOff.of_reads {t : Token} {c : Char} {cs : List Char} {l : Lexeme}
    (h : t.IsReadOff (c :: cs)) (hread : ∀ lineStart, Lexeme.Reads lineStart c cs l)
    (hnewline : c ≠ '\n') (hdirective : l.kind ≠ .directive) :
    t.kind = l.kind ∧ t.text.toList = c :: l.tail := by
  cases h with
  | newline => exact absurd rfl hnewline
  | lexeme lineStart _ _ kind text =>
    rw [(hread lineStart).read_eq] at kind text
    exact ⟨kind, by rw [text, Lexeme.toList_text_of_ne_directive hdirective]⟩

theorem IsReadOff.isMaximal {t : Token} {rest : List Char} (h : t.IsReadOff rest) :
    IsMaximal t rest := by
  refine ⟨?_, ?_, ?_⟩
  · rintro c cs rfl hstarts
    have hnewline : c ≠ '\n' := by
      rintro rfl
      rcases hstarts with hdigit | ⟨hdot, -⟩
      · exact absurd hdigit (by decide)
      · exact absurd hdot (by decide)
    obtain ⟨hkind, htext⟩ := h.of_reads (fun _ => .number hstarts) hnewline (by simp)
    rw [htext]
    exact ⟨hkind, isLongest_number hstarts⟩
  · rintro c cs rfl hstarts
    have hnewline : c ≠ '\n' := by
      rintro rfl
      exact absurd hstarts (by decide)
    have hdirective : (Lexeme.word c cs).kind ≠ .directive := by
      rcases Lexeme.kind_word c cs with hkind | hkind <;> rw [hkind] <;> decide
    obtain ⟨hkind, htext⟩ := h.of_reads (fun _ => .word hstarts) hnewline hdirective
    have hword : t.text = String.ofList (c :: wordTail cs) := by
      rw [← String.toList_inj, htext, String.toList_ofList]
      rfl
    refine ⟨?_, htext ▸ isLongest_word (Lexeme.isWordChar_of_isWordStart hstarts)⟩
    rw [hkind, Lexeme.word, ← hword, HeaderLint.isKeyword]
    simp only [List.contains_iff_mem]
  · intro hkind
    obtain ⟨lineStart, c, cs, rfl, hrule, hread, htext⟩ :=
      h.exists_rule (by rcases hkind with h | h <;> rw [h] <;> decide)
    have hmark : Lexeme.read lineStart c cs = Lexeme.mark c cs := by
      rcases hkind with h | h <;> rw [h] at hrule <;> exact hrule.2
    rw [hmark] at hread htext
    rw [hread, htext]
    exact isLongest_mark (by rw [← hread]; rcases hkind with h | h <;> rw [h] <;> decide)

/-- Every token of a scan has one place in its source.  What a number, a word or a mark covers of
the text there is the longest that has its form. -/
theorem scan_maximal (source : String) {t : Token} (ht : t ∈ scan source) :
    Nonempty (Place source t) ∧ ∀ place : Place source t, IsMaximal t place.rest :=
  ⟨nonempty_place ht, fun place => (place.isReadOff ht).isMaximal⟩

/-- No exponent and no second full stop belong to the first number.  The second one has a suffix
that could be digits. -/
theorem scan_maximal_numbers :
    (⟨.number, "1.", ⟨1, 1⟩⟩ : Token) ∈ scan "1..5e+x 0x1fL" ∧
      (∀ place : Place "1..5e+x 0x1fL" ⟨.number, "1.", ⟨1, 1⟩⟩,
        IsMaximal ⟨.number, "1.", ⟨1, 1⟩⟩ place.rest) ∧
      (⟨.number, "0x1fL", ⟨1, 9⟩⟩ : Token) ∈ scan "1..5e+x 0x1fL" ∧
      ∀ place : Place "1..5e+x 0x1fL" ⟨.number, "0x1fL", ⟨1, 9⟩⟩,
        IsMaximal ⟨.number, "0x1fL", ⟨1, 9⟩⟩ place.rest := by
  have hdecimal : (⟨.number, "1.", ⟨1, 1⟩⟩ : Token) ∈ scan "1..5e+x 0x1fL" := by decide +kernel
  have hhexadecimal : (⟨.number, "0x1fL", ⟨1, 9⟩⟩ : Token) ∈ scan "1..5e+x 0x1fL" := by
    decide +kernel
  exact ⟨hdecimal, (scan_maximal _ hdecimal).2, hhexadecimal, (scan_maximal _ hhexadecimal).2⟩

end Token

end HeaderLint
