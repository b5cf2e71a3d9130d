import HeaderLint.Proofs.Token.Place
import HeaderLint.Proofs.Token.Lookahead

/-!
# The extent of comments and literals

A comment or a literal covers the source up to the first place that stops it, and up to the end if
there is none (`EndsFrom`).

* A line comment is stopped by a line feed.
* A block comment is stopped by `*/` behind its first two characters.
* A literal is stopped by its quote or a line feed that is not escaped.  A place is escaped when the
  run of backslashes directly before it is odd (`IsEscaped`).

The scan of a literal knows no runs: a backslash takes the next character with it.  So wherever it
looks at a character the run before is even, which is the invariant of `endsFrom_literalTail`.
-/

namespace HeaderLint

open Text

/-! ## Where an extent stops -/

/-- What is covered of a text, from the place `k` on.  `stops i n` says that the place `i` stops the
extent, which then covers the first `n` characters.  The first such place decides. -/
inductive EndsFrom (stops : Nat → Nat → Prop) (cs : List Char) (k : Nat) : Nat → Prop
  | stop {i n : Nat} (le : k ≤ i) (h : stops i n) (first : ∀ j m, k ≤ j → stops j m → i ≤ j) :
      EndsFrom stops cs k n
  | never (h : ∀ i n, k ≤ i → ¬stops i n) : EndsFrom stops cs k cs.length

namespace EndsFrom

variable {stops : Nat → Nat → Prop} {cs : List Char} {k n : Nat}

theorem here (h : stops k n) : EndsFrom stops cs k n :=
  .stop (Nat.le_refl k) h fun _ _ hj _ => hj

/-- A place that does not stop the extent may be passed. -/
theorem later (hk : ∀ m, ¬stops k m) (h : EndsFrom stops cs (k + 1) n) : EndsFrom stops cs k n := by
  have hlt : ∀ j m, k ≤ j → stops j m → k + 1 ≤ j := by
    intro j m hj hstops
    rcases Nat.lt_or_eq_of_le hj with hlt | rfl
    · exact hlt
    · exact absurd hstops (hk m)
  cases h with
  | stop le h first =>
    exact .stop (Nat.le_of_succ_le le) h fun j m hj hstops => first j m (hlt j m hj hstops) hstops
  | never h => exact .never fun j m hj hstops => h j m (hlt j m hj hstops) hstops

/-- A character that does not stop the extent belongs to it. -/
theorem later_append {stops : List Char → Nat → Nat → Prop} {before tail cs : List Char} {c : Char}
    (hc : ∀ m, ¬stops (before ++ c :: cs) before.length m)
    (h : EndsFrom (stops ((before ++ [c]) ++ cs)) ((before ++ [c]) ++ cs) (before ++ [c]).length
      ((before ++ [c]) ++ tail).length) :
    EndsFrom (stops (before ++ c :: cs)) (before ++ c :: cs) before.length
      (before ++ c :: tail).length := by
  rw [List.length_append, List.append_assoc, List.append_assoc] at h
  exact .later hc h

/-- Nothing stops an extent behind the end of the text. -/
theorem atEnd (h : ∀ i m, stops i m → i < cs.length) (hk : cs.length ≤ k) :
    EndsFrom stops cs k cs.length :=
  .never fun i m hi hstops => Nat.not_lt_of_le (Nat.le_trans hk hi) (h i m hstops)

end EndsFrom

/-- A line feed stops a line comment, which does not cover it. -/
def StopsLine (cs : List Char) (i n : Nat) : Prop := cs[i]? = some '\n' ∧ n = i

/-- A star and a slash stop a block comment, which covers both. -/
def StopsBlock (cs : List Char) (i n : Nat) : Prop :=
  cs[i]? = some '*' ∧ cs[i + 1]? = some '/' ∧ n = i + 2

/-- The length of the run of backslashes at the end of a text. -/
def backslashRun (cs : List Char) : Nat := (cs.reverse.takeWhile (· == '\\')).length

/-- The run of backslashes directly before the place is odd. -/
def IsEscaped (cs : List Char) (i : Nat) : Prop := backslashRun (cs.take i) % 2 = 1

/-- A quote that is not escaped stops a literal, which covers it, and so does a line feed that is
not escaped, which it does not cover. -/
def StopsLiteral (quote : Char) (cs : List Char) (i n : Nat) : Prop :=
  ¬IsEscaped cs i ∧ (cs[i]? = some quote ∧ n = i + 1 ∨ cs[i]? = some '\n' ∧ n = i)

/-! ## Looking at a place -/

section
variable {before cs : List Char} {c d : Char}

theorem lt_length_of_getElem? {i : Nat} (h : cs[i]? = some c) : i < cs.length :=
  (List.getElem?_eq_some_iff.mp h).1

theorem getElem?_length_iff : (before ++ c :: cs)[before.length]? = some d ↔ c = d := by
  rw [List.getElem?_append_right (Nat.le_refl _), Nat.sub_self, List.getElem?_cons_zero,
    Option.some_inj]

theorem getElem?_length_succ : (before ++ c :: cs)[before.length + 1]? = cs.head? := by
  rw [List.getElem?_append_right (Nat.le_add_right _ 1), Nat.add_sub_cancel_left,
    List.getElem?_cons_succ, List.head?_eq_getElem?]

end

/-! ## Comments -/

theorem endsFrom_restOfLine (before cs : List Char) :
    EndsFrom (StopsLine (before ++ cs)) (before ++ cs) before.length
      (before ++ restOfLine cs).length := by
  induction cs generalizing before with
  | nil => exact .atEnd (fun i m h => lt_length_of_getElem? h.1) (by simp)
  | cons c cs ih =>
    by_cases hc : c = '\n'
    · have hnone : restOfLine (c :: cs) = [] := restOfLine_eq_nil_iff.mpr (.inr (by rw [hc]; rfl))
      rw [hnone, List.append_nil]
      exact .here ⟨getElem?_length_iff.mpr hc, rfl⟩
    · have hrest : restOfLine (c :: cs) = c :: restOfLine cs :=
        List.takeWhile_cons_of_pos (bne_iff_ne.mpr hc)
      rw [hrest]
      exact .later_append (fun m h => hc (getElem?_length_iff.mp h.1)) (ih _)

theorem endsFrom_blockCommentTail (before cs : List Char) :
    EndsFrom (StopsBlock (before ++ cs)) (before ++ cs) before.length
      (before ++ blockCommentTail cs).length := by
  fun_induction blockCommentTail cs generalizing before with
  | case1 => exact .atEnd (fun i m h => lt_length_of_getElem? h.1) (by simp)
  | case2 cs =>
    rw [List.length_append]
    exact .here ⟨getElem?_length_iff.mpr rfl, getElem?_length_succ, rfl⟩
  | case3 c cs hopen ih =>
    refine .later_append ?_ (ih _)
    rintro m ⟨hstar, hslash, -⟩
    rw [getElem?_length_succ] at hslash
    obtain ⟨ds, rfl⟩ := List.head?_eq_some_iff.mp hslash
    exact hopen ds (getElem?_length_iff.mp hstar) rfl

/-! ## Literals -/

theorem backslashRun_concat (cs : List Char) (c : Char) :
    backslashRun (cs ++ [c]) = if c = '\\' then backslashRun cs + 1 else 0 := by
  rw [backslashRun, List.reverse_append]
  by_cases hc : c = '\\'
  · simp [hc, backslashRun]
  · simp [hc]

/-- Behind a text a quote or a line feed stops the literal if the run before it is even. -/
theorem stopsLiteral_length_iff {quote c : Char} {before cs : List Char} {n : Nat} :
    StopsLiteral quote (before ++ c :: cs) before.length n ↔
      backslashRun before % 2 = 0 ∧
        (c = quote ∧ n = before.length + 1 ∨ c = '\n' ∧ n = before.length) := by
  rw [StopsLiteral, IsEscaped, List.take_left, getElem?_length_iff, getElem?_length_iff,
    Nat.mod_two_not_eq_one]

/-- A literal goes on from a place with an even run before it to the first place that stops it. -/
theorem endsFrom_literalTail {quote : Char} (hquote : quote ≠ '\\') (before cs : List Char)
    (heven : backslashRun before % 2 = 0) :
    EndsFrom (StopsLiteral quote (before ++ cs)) (before ++ cs) before.length
      (before ++ literalTail quote cs).length := by
  have hinside : ∀ {cs : List Char} i n, StopsLiteral quote cs i n → i < cs.length := by
    rintro cs i n ⟨-, ⟨h, -⟩ | ⟨h, -⟩⟩ <;> exact lt_length_of_getElem? h
  have hbackslash : ∀ (before cs : List Char) n,
      ¬StopsLiteral quote (before ++ '\\' :: cs) before.length n := by
    intro before cs n h
    rcases (stopsLiteral_length_iff.mp h).2 with ⟨h, -⟩ | ⟨h, -⟩
    · exact hquote h.symm
    · exact absurd h (by decide)
  fun_induction literalTail quote cs generalizing before with
  | case1 => exact .atEnd hinside (by simp)
  | case2 =>
    refine .later_append (hbackslash before []) ?_
    rw [List.append_nil]
    exact .atEnd hinside (by simp)
  | case3 c cs ih =>
    -- The character behind the backslash is escaped, and behind it the run is even again.
    have hodd : backslashRun (before ++ ['\\']) % 2 = 1 := by
      rw [backslashRun_concat, if_pos rfl]
      omega
    have hagain : backslashRun ((before ++ ['\\']) ++ [c]) % 2 = 0 := by
      rw [backslashRun_concat]
      split <;> omega
    refine .later_append (hbackslash before (c :: cs)) (.later_append (fun n h => ?_) (ih _ hagain))
    have hfree := (stopsLiteral_length_iff.mp h).1
    omega
  | case4 cs =>
    rw [List.append_nil]
    exact .here (stopsLiteral_length_iff.mpr ⟨heven, .inr ⟨rfl, rfl⟩⟩)
  | case5 cs => exact .here (stopsLiteral_length_iff.mpr ⟨heven, .inl ⟨rfl, List.length_append⟩⟩)
  | case6 c cs hlast hpair hn hq ih =>
    have hagain : backslashRun (before ++ [c]) % 2 = 0 := by
      rw [backslashRun_concat, if_neg ?_]
      rintro rfl
      cases cs with
      | nil => exact hlast rfl rfl
      | cons d ds => exact hpair d ds rfl rfl
    refine .later_append (fun n h => ?_) (ih _ hagain)
    rcases (stopsLiteral_length_iff.mp h).2 with ⟨h, -⟩ | ⟨h, -⟩
    · exact hq h
    · exact hn h

/-! ## Extents of tokens -/

/-- What the text of a comment or a literal covers of the text that it is read off. -/
structure HasExtent (t : Token) (rest : List Char) : Prop where
  literal : ∀ quote, t.kind = .stringLiteral ∧ quote = '"' ∨ t.kind = .charLiteral ∧ quote = '\'' →
    ∃ inside n, rest = quote :: inside ∧ EndsFrom (StopsLiteral quote inside) inside 0 n ∧
      t.text.toList = quote :: inside.take n
  blockComment : t.kind = .blockComment →
    ∃ inside n, rest = '/' :: '*' :: inside ∧ EndsFrom (StopsBlock rest) rest 2 n ∧
      t.text.toList = rest.take n
  lineComment : t.kind = .lineComment →
    ∃ inside n, rest = '/' :: '/' :: inside ∧ EndsFrom (StopsLine rest) rest 0 n ∧
      t.text.toList = rest.take n

namespace Token

theorem IsReadOff.hasExtent {t : Token} {rest : List Char} (h : t.IsReadOff rest) :
    HasExtent t rest := by
  refine ⟨?_, ?_, ?_⟩
  · intro quote hquote
    obtain ⟨lineStart, c, cs, rfl, hrule, -, htext⟩ := h.exists_rule
      (by rcases hquote with h | h <;> rw [h.1] <;> decide)
    obtain ⟨rfl, hne, htail⟩ : c = quote ∧ quote ≠ '\\' ∧
        (Lexeme.read lineStart c cs).tail = literalTail quote cs := by
      rcases hquote with ⟨hkind, rfl⟩ | ⟨hkind, rfl⟩ <;> rw [hkind] at hrule <;>
        exact ⟨hrule.1, by decide, by rw [hrule.2]⟩
    refine ⟨cs, _, rfl, endsFrom_literalTail hne [] cs rfl, ?_⟩
    rw [htext, htail]
    exact congrArg _ (List.prefix_iff_eq_take.mp (literalTail_isPrefix c cs))
  · intro hkind
    obtain ⟨lineStart, c, cs, rfl, hrule, -, htext⟩ := h.exists_rule (by rw [hkind]; decide)
    rw [hkind] at hrule
    obtain ⟨rfl, hstar, hread⟩ := hrule
    obtain ⟨inside, rfl⟩ := List.head?_eq_some_iff.mp hstar
    refine ⟨inside, _, rfl, endsFrom_blockCommentTail ['/', '*'] inside, ?_⟩
    rw [htext, hread]
    exact List.prefix_iff_eq_take.mp
      ((List.prefix_append_right_inj ['/', '*']).mpr (blockCommentTail_isPrefix inside))
  · intro hkind
    obtain ⟨lineStart, c, cs, rfl, hrule, -, htext⟩ := h.exists_rule (by rw [hkind]; decide)
    rw [hkind] at hrule
    obtain ⟨rfl, hslash, hread⟩ := hrule
    obtain ⟨inside, rfl⟩ := List.head?_eq_some_iff.mp hslash
    have htext' : t.text.toList = restOfLine ('/' :: '/' :: inside) := by
      rw [htext, hread]
      rfl
    refine ⟨inside, _, rfl, endsFrom_restOfLine [] ('/' :: '/' :: inside), ?_⟩
    rw [htext']
    exact List.prefix_iff_eq_take.mp (List.takeWhile_prefix _)

/-- Every token of a scan has one place in its source.  A literal and a comment cover the text there
up to the first place that stops them, and no token starts inside another. -/
theorem scan_extents (source : String) {t : Token} (ht : t ∈ scan source) :
    Nonempty (Place source t) ∧
      ∀ place : Place source t, HasExtent t place.rest ∧ place.IsUnbroken :=
  ⟨nonempty_place ht, fun place => ⟨(place.isReadOff ht).hasExtent, place.isUnbroken ht⟩⟩

/-- Behind three backslashes a quote is escaped, and behind two it closes the literal.  The slash
behind the opening of a block comment does not close it. -/
theorem scan_extents_escaped :
    (⟨.stringLiteral, "\"a\\\\\\\"b\\\\\"", ⟨1, 1⟩⟩ : Token) ∈
        scan "\"a\\\\\\\"b\\\\\" /*/ */" ∧
      (∀ place : Place "\"a\\\\\\\"b\\\\\" /*/ */"
          ⟨.stringLiteral, "\"a\\\\\\\"b\\\\\"", ⟨1, 1⟩⟩,
        HasExtent ⟨.stringLiteral, "\"a\\\\\\\"b\\\\\"", ⟨1, 1⟩⟩ place.rest ∧ place.IsUnbroken) ∧
      (⟨.blockComment, "/*/ */", ⟨1, 12⟩⟩ : Token) ∈ scan "\"a\\\\\\\"b\\\\\" /*/ */" ∧
      ∀ place : Place "\"a\\\\\\\"b\\\\\" /*/ */" ⟨.blockComment, "/*/ */", ⟨1, 12⟩⟩,
        HasExtent ⟨.blockComment, "/*/ */", ⟨1, 12⟩⟩ place.rest ∧ place.IsUnbroken := by
  have hliteral : (⟨.stringLiteral, "\"a\\\\\\\"b\\\\\"", ⟨1, 1⟩⟩ : Token) ∈
      scan "\"a\\\\\\\"b\\\\\" /*/ */" := by decide +kernel
  have hcomment : (⟨.blockComment, "/*/ */", ⟨1, 12⟩⟩ : Token) ∈
      scan "\"a\\\\\\\"b\\\\\" /*/ */" := by decide +kernel
  exact ⟨hliteral, (scan_extents _ hliteral).2, hcomment, (scan_extents _ hcomment).2⟩

end Token

end HeaderLint
