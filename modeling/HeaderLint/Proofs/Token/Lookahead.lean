import HeaderLint.Proofs.Token.Rules

/-!
# What a lexeme sees of the text behind it

A lexeme ends where it does because of the text behind it: a number looks up to three
characters ahead, a mark looks at one, and a comment or a literal ends with its line
or with the text.  `Lexeme.read_append` says how far that goes.  Behind the lexeme the
text `cs` may be replaced by `ds` if two things hold.

* `FrontLE ds cs`: up to its first blank, `ds` is the start of `cs`.  The two may be
  the same up to there, or `ds` may be cut short.
* `Stops ds cs`: `ds` ends the text, or neither does and `ds` ends the line if `cs`
  does.

An extent that needs the first of them only is `Local`.  The pieces of a number and
the word are.
-/

namespace HeaderLint

open Text

/-! ## The front of a text -/

/-- Every run without a blank at the front of the first text is at the front of the
second. -/
def FrontLE (ds cs : List Char) : Prop :=
  ∀ run, (∀ c ∈ run, isBlank c = false) → run <+: ds → run <+: cs

namespace FrontLE

variable {ds cs : List Char}

theorem nil_left (cs : List Char) : FrontLE [] cs := by
  intro run _ h
  rw [List.prefix_nil.mp h]
  exact List.nil_prefix

theorem cons (c : Char) (h : FrontLE ds cs) : FrontLE (c :: ds) (c :: cs) := by
  intro run hrun hp
  cases run with
  | nil => exact List.nil_prefix
  | cons d run =>
    obtain ⟨rfl, hrest⟩ := List.cons_prefix_cons.mp hp
    exact (List.prefix_cons_inj d).mpr (h run (List.forall_mem_cons.mp hrun).2 hrest)

/-- A text that starts with a blank shows nothing. -/
theorem of_isBlank {d : Char} (ds : List Char) (hb : isBlank d = true) (cs : List Char) :
    FrontLE (d :: ds) cs := by
  intro run hrun hp
  cases run with
  | nil => exact List.nil_prefix
  | cons e run =>
    obtain ⟨rfl, -⟩ := List.cons_prefix_cons.mp hp
    rw [(List.forall_mem_cons.mp hrun).1] at hb
    cases hb

theorem append (ts : List Char) (h : FrontLE ds cs) : FrontLE (ts ++ ds) (ts ++ cs) := by
  induction ts with
  | nil => exact h
  | cons t ts ih => exact .cons t ih

/-- A first character that is not blank is the same on the right. -/
theorem uncons {d : Char} (h : FrontLE (d :: ds) cs) (hb : isBlank d = false) :
    ∃ rest, cs = d :: rest ∧ FrontLE ds rest := by
  obtain ⟨rest, rfl⟩ := h [d] (by simpa using hb) ⟨ds, rfl⟩
  refine ⟨rest, rfl, fun run hrun hp => ?_⟩
  exact (List.prefix_cons_inj d).mp
    (h (d :: run) (List.forall_mem_cons.mpr ⟨hb, hrun⟩) ((List.prefix_cons_inj d).mpr hp))

theorem head?_eq {d : Char} (h : FrontLE ds cs) (hb : isBlank d = false)
    (hd : ds.head? = some d) : cs.head? = some d := by
  obtain ⟨ds, rfl⟩ := List.head?_eq_some_iff.mp hd
  obtain ⟨rest, rfl, -⟩ := h.uncons hb
  rfl

theorem head?_any {p : Char → Bool} (h : FrontLE ds cs)
    (hp : ∀ c, p c = true → isBlank c = false) (hd : ds.head?.any p = true) :
    cs.head?.any p = true := by
  obtain ⟨d, hd, hpd⟩ := (Option.any_eq_true p _).mp hd
  rw [h.head?_eq (hp d hpd) hd]
  exact hpd

end FrontLE

/-! ## Classes without blanks -/

/-- The printing characters of ASCII but the space are not blank. -/
theorem isBlank_of_graphic {c : Char} (h : 0x21 ≤ c.val.toNat) (h' : c.val.toNat ≤ 0x7e) :
    isBlank c = false := by
  rw [isBlank, ← Bool.not_eq_true, inRanges_eq_true_iff]
  rintro ⟨r, hr, hl, hu⟩
  simp only [blankRanges, List.mem_cons, List.not_mem_nil, or_false] at hr
  rw [Char.toNat] at hl hu
  rcases hr with rfl | rfl | rfl | rfl | rfl | rfl | rfl | rfl | rfl | rfl <;>
    dsimp only at hl hu <;> omega

theorem isBlank_of_isAlphanum {c : Char} (h : c.isAlphanum = true) : isBlank c = false := by
  delta Char.isAlphanum Char.isAlpha Char.isUpper Char.isLower Char.isDigit at h
  simp only [Bool.or_eq_true, Bool.and_eq_true, decide_eq_true_eq, ge_iff_le,
    UInt32.le_iff_toNat_le] at h
  rcases h with (h | h) | h <;>
    exact isBlank_of_graphic (Nat.le_trans (by decide) h.1) (Nat.le_trans h.2 (by decide))

theorem isBlank_of_isDigit {c : Char} (h : c.isDigit = true) : isBlank c = false :=
  isBlank_of_isAlphanum (by rw [Char.isAlphanum, h, Bool.or_true])

theorem isBlank_of_isHexDigit {c : Char} (h : isHexDigit c = true) : isBlank c = false := by
  simp only [isHexDigit, Bool.or_eq_true, Bool.and_eq_true, decide_eq_true_eq, Char.le_def,
    UInt32.le_iff_toNat_le] at h
  rcases h with (h | h) | h
  · exact isBlank_of_isDigit h
  all_goals exact isBlank_of_graphic (Nat.le_trans (by decide) h.1) (Nat.le_trans h.2 (by decide))

theorem isBlank_of_isSuffixLetter {c : Char} (h : isSuffixLetter c = true) :
    isBlank c = false := by
  simp only [isSuffixLetter, Bool.or_eq_true, decide_eq_true_eq] at h
  rcases h with ((((rfl | rfl) | rfl) | rfl) | rfl) | rfl <;> decide

theorem isBlank_of_isWordChar {c : Char} (h : isWordChar c = true) : isBlank c = false := by
  rw [isWordChar, Bool.or_eq_true, beq_iff_eq] at h
  rcases h with h | rfl
  · exact isBlank_of_isAlphanum h
  · decide

/-! ## Local extents -/

/-- What the extent covers stays the same when the front of the text behind it is cut
short. -/
def Local (f : List Char → List Char) : Prop :=
  ∀ ts cs ds, FrontLE ds cs → f (ts ++ cs) = ts → f (ts ++ ds) = ts

/-- The characters of a class without blanks are a local extent. -/
theorem local_takeWhile {p : Char → Bool} (hp : ∀ c, p c = true → isBlank c = false) :
    Local (List.takeWhile p) := by
  intro ts cs ds h ht
  have hts : ∀ c ∈ ts, p c = true := by
    rw [← ht]
    exact List.all_eq_true.mp List.all_takeWhile
  rw [List.takeWhile_append_of_pos hts, List.append_right_eq_self] at ht ⊢
  cases ds with
  | nil => rfl
  | cons d ds =>
    by_cases hd : p d = true
    · obtain ⟨rest, rfl, -⟩ := h.uncons (hp d hd)
      rw [List.takeWhile_cons_of_pos hd] at ht
      cases ht
    · exact List.takeWhile_cons_of_neg hd

theorem takeWhile_ne_nil {p : Char → Bool} {cs : List Char} (h : cs.head?.any p = true) :
    cs.takeWhile p ≠ [] := by
  cases cs with
  | nil => cases h
  | cons c cs =>
    rw [List.takeWhile_cons_of_pos (by simpa using h)]
    exact List.cons_ne_nil _ _

theorem local_digits : Local digits := local_takeWhile fun _ h => isBlank_of_isDigit h

theorem local_hexadecimals : Local hexadecimals :=
  local_takeWhile fun _ h => isBlank_of_isHexDigit h

theorem local_suffixLetters : Local suffixLetters :=
  local_takeWhile fun _ h => isBlank_of_isSuffixLetter h

theorem local_wordTail : Local wordTail := local_takeWhile fun _ h => isBlank_of_isWordChar h

/-- One local extent after another is local. -/
theorem local_followedBy {f g : List Char → List Char} (hf : Local f) (hg : Local g) :
    Local fun cs => followedBy (f cs) g cs := by
  intro ts cs ds h ht
  -- The first extent covers a part of `ts`, and the second covers the rest.
  obtain ⟨part, hpart⟩ : ∃ part, f (ts ++ cs) = part := ⟨_, rfl⟩
  simp only [hpart, followedBy] at ht
  obtain ⟨us, rfl⟩ : ∃ us, ts = part ++ us := ⟨_, ht.symm⟩
  rw [List.append_assoc] at hpart ht ⊢
  rw [List.drop_left, List.append_cancel_left_eq] at ht
  have hcover : f (part ++ (us ++ ds)) = part := hf part (us ++ cs) (us ++ ds) (h.append us) hpart
  simp only [hcover, followedBy, List.drop_left]
  rw [hg us cs ds h ht]

/-! ## Numbers -/

theorem local_fraction : Local fraction := by
  intro ts cs ds h ht
  cases ts with
  | nil =>
    cases ds with
    | nil => rfl
    | cons d ds =>
      by_cases hd : d = '.'
      · obtain ⟨rest, rfl, -⟩ := h.uncons (by rw [hd]; decide)
        rw [hd] at ht
        cases ht
      · rw [List.nil_append, fraction]
        exact fun _ hcons => hd (List.cons.inj hcons).1
  | cons t ts =>
    by_cases htdot : t = '.'
    · rw [htdot, List.cons_append, fraction, List.cons_inj_right] at ht ⊢
      exact local_digits ts cs ds h ht
    · rw [List.cons_append, fraction] at ht
      · cases ht
      · exact fun _ hcons => htdot (List.cons.inj hcons).1

theorem exponentDigits_eq_nil {cs ds : List Char} (h : FrontLE ds cs)
    (hn : exponentDigits cs = []) : exponentDigits ds = [] := by
  cases ds with
  | nil => rfl
  | cons d ds =>
    by_cases hd : d.isDigit = true
    · obtain ⟨rest, rfl, -⟩ := h.uncons (isBlank_of_isDigit hd)
      rw [exponentDigits, if_pos hd] at hn
      cases hn
    · by_cases hs : (d = '+' ∨ d = '-') ∧ ds.head?.any Char.isDigit = true
      · have hb : isBlank d = false := by rcases hs.1 with rfl | rfl <;> decide
        obtain ⟨rest, rfl, hrest⟩ := h.uncons hb
        have hany := hrest.head?_any (fun _ h => isBlank_of_isDigit h) hs.2
        rw [exponentDigits, if_neg hd, if_pos ⟨hs.1, hany⟩] at hn
        cases hn
      · rw [exponentDigits, if_neg hd, if_neg hs]

theorem local_exponentDigits : Local exponentDigits := by
  intro ts cs ds h ht
  cases ts with
  | nil => exact exponentDigits_eq_nil h ht
  | cons t ts =>
    rw [List.cons_append, exponentDigits] at ht ⊢
    by_cases hd : t.isDigit = true
    · rw [if_pos hd, List.cons_inj_right] at ht ⊢
      exact local_digits ts cs ds h ht
    · rw [if_neg hd] at ht ⊢
      split at ht
      · next hs =>
        rw [List.cons_inj_right] at ht
        -- The digit behind the sign is in `ts`, so the text behind `ts` does not matter.
        have hne : ts ≠ [] := by
          rintro rfl
          exact takeWhile_ne_nil hs.2 ht
        obtain ⟨u, us, rfl⟩ := List.exists_cons_of_ne_nil hne
        rw [List.cons_append, List.head?_cons] at hs ⊢
        rw [if_pos hs, List.cons_inj_right]
        exact local_digits (u :: us) cs ds h ht
      · cases ht

theorem local_exponent : Local exponent := by
  intro ts cs ds h ht
  cases ts with
  | nil =>
    cases ds with
    | nil => rfl
    | cons d ds =>
      rw [List.nil_append, exponent]
      split
      · next he =>
        have hb : isBlank d = false := by rcases he.1 with rfl | rfl <;> decide
        obtain ⟨rest, rfl, hrest⟩ := h.uncons hb
        rw [List.nil_append, exponent] at ht
        split at ht
        · cases ht
        · next hn => exact absurd (exponentDigits_eq_nil hrest (by grind)) he.2
      · rfl
  | cons t ts =>
    rw [List.cons_append, exponent] at ht ⊢
    split at ht
    · next he =>
      rw [List.cons_inj_right] at ht
      have hcover := local_exponentDigits ts cs ds h ht
      rw [ht] at he
      rw [hcover, if_pos he]
    · cases ht

/-! ### The whole number -/

theorem local_decimalTail (c : Char) : Local (decimalTail c) := by
  have hm : Local fun cs => if c = '.' then digits cs else followedBy (digits cs) fraction cs := by
    by_cases hc : c = '.'
    · simp only [if_pos hc]
      exact local_digits
    · simp only [if_neg hc]
      exact local_followedBy local_digits local_fraction
  exact local_followedBy (local_followedBy hm local_exponent) local_suffixLetters

/-- The text goes on as a hexadecimal number does behind its zero. -/
theorem hexadecimalTail?_isSome_iff {c : Char} {cs : List Char} :
    (hexadecimalTail? c cs).isSome = true ↔
      c = '0' ∧ ∃ x ds, cs = x :: ds ∧ (x = 'x' ∨ x = 'X') ∧ ds.head?.any isHexDigit = true := by
  cases cs with
  | nil => simp [hexadecimalTail?]
  | cons x cs =>
    rw [hexadecimalTail?]
    split <;> grind

theorem hexadecimalTail?_cons {x : Char} {cs : List Char} (hx : x = 'x' ∨ x = 'X')
    (hd : cs.head?.any isHexDigit = true) :
    hexadecimalTail? '0' (x :: cs) = some (x :: followedBy (hexadecimals cs) suffixLetters cs) := by
  rw [hexadecimalTail?, if_pos ⟨rfl, hx, hd⟩]
  rfl

theorem hexadecimalTail?_of_frontLE {c : Char} {cs ds : List Char} (h : FrontLE ds cs)
    (hs : (hexadecimalTail? c ds).isSome = true) : (hexadecimalTail? c cs).isSome = true := by
  obtain ⟨hc, x, ds, rfl, hx, hd⟩ := hexadecimalTail?_isSome_iff.mp hs
  have hb : isBlank x = false := by rcases hx with rfl | rfl <;> decide
  obtain ⟨rest, rfl, hrest⟩ := h.uncons hb
  exact hexadecimalTail?_isSome_iff.mpr
    ⟨hc, x, rest, rfl, hx, hrest.head?_any (fun _ h => isBlank_of_isHexDigit h) hd⟩

theorem local_numberTail (c : Char) : Local (numberTail c) := by
  intro ts cs ds h ht
  rw [numberTail] at ht ⊢
  by_cases hex : (hexadecimalTail? c (ts ++ cs)).isSome = true
  · obtain ⟨rfl, x, es, hes, hx, hd⟩ := hexadecimalTail?_isSome_iff.mp hex
    rw [hes, hexadecimalTail?_cons hx hd, Option.getD_some] at ht
    cases ts with
    | nil => cases ht
    | cons t us =>
      obtain ⟨rfl, rfl⟩ := List.cons.inj hes
      rw [List.cons_inj_right] at ht
      -- The digit behind the `x` is in `us`, so the text behind `us` does not matter.
      have hne : us ≠ [] := by
        rintro rfl
        exact takeWhile_ne_nil hd (List.append_eq_nil_iff.mp ht).1
      obtain ⟨u, us, rfl⟩ := List.exists_cons_of_ne_nil hne
      rw [List.cons_append, hexadecimalTail?_cons hx (by simpa using hd), Option.getD_some,
        List.cons_inj_right]
      exact local_followedBy local_hexadecimals local_suffixLetters (u :: us) cs ds h ht
  · have hnone : ¬(hexadecimalTail? c (ts ++ ds)).isSome = true :=
      mt (hexadecimalTail?_of_frontLE (h.append ts)) hex
    rw [Option.not_isSome_iff_eq_none] at hex hnone
    rw [hex] at ht
    rw [hnone]
    exact local_decimalTail c ts cs ds h ht

/-! ## Comments and literals -/

/-- The first text ends where the second does not, or both go on and the first ends
its line if the second does. -/
def Stops (ds cs : List Char) : Prop :=
  ds = [] ∨ cs ≠ [] ∧ (cs.head? = some '\n' → ds.head? = some '\n')

theorem Stops.eq_nil {cs ds : List Char} (h : Stops ds cs) (hn : cs = []) : ds = [] := by
  rcases h with h | h
  · exact h
  · exact absurd hn h.1

/-- The first text does not go on with the line where the second does not. -/
theorem Stops.line {cs ds : List Char} (h : Stops ds cs) (hn : cs = [] ∨ cs.head? = some '\n') :
    ds = [] ∨ ds.head? = some '\n' := by
  rcases h with h | ⟨hne, hnl⟩
  · exact Or.inl h
  · exact Or.inr (hnl (hn.resolve_left hne))

theorem restOfLine_append {ts cs ds : List Char} (h : Stops ds cs)
    (ht : restOfLine (ts ++ cs) = ts) : restOfLine (ts ++ ds) = ts := by
  have hts : '\n' ∉ ts := ht ▸ newline_not_mem_restOfLine _
  rw [restOfLine_append_of_newline_not_mem hts, List.append_right_eq_self,
    restOfLine_eq_nil_iff] at ht ⊢
  exact h.line ht

theorem blockCommentTail_cons {c : Char} {cs : List Char}
    (h : ¬(c = '*' ∧ cs.head? = some '/')) :
    blockCommentTail (c :: cs) = c :: blockCommentTail cs := by
  rw [blockCommentTail]
  rintro es rfl
  rintro rfl
  exact h ⟨rfl, rfl⟩

theorem blockCommentTail_eq_nil_iff {cs : List Char} : blockCommentTail cs = [] ↔ cs = [] := by
  cases cs with
  | nil => simp [blockCommentTail]
  | cons c cs =>
    by_cases hc : c = '*' ∧ cs.head? = some '/'
    · obtain ⟨rfl, hc⟩ := hc
      obtain ⟨cs, rfl⟩ := List.head?_eq_some_iff.mp hc
      simp [blockCommentTail]
    · simp [blockCommentTail_cons hc]

theorem blockCommentTail_append {ts cs ds : List Char} (h : Stops ds cs)
    (ht : blockCommentTail (ts ++ cs) = ts) : blockCommentTail (ts ++ ds) = ts := by
  induction ts with
  | nil =>
    rw [List.nil_append, blockCommentTail_eq_nil_iff] at ht ⊢
    exact h.eq_nil ht
  | cons t ts ih =>
    by_cases hc : t = '*' ∧ (ts ++ cs).head? = some '/'
    · obtain ⟨rfl, hc⟩ := hc
      obtain ⟨es, hes⟩ := List.head?_eq_some_iff.mp hc
      rw [List.cons_append, hes, blockCommentTail, List.cons_inj_right] at ht
      rw [← ht]
      rfl
    · rw [List.cons_append, blockCommentTail_cons hc, List.cons_inj_right] at ht
      have hd : ¬(t = '*' ∧ (ts ++ ds).head? = some '/') := by
        cases ts with
        | nil =>
          rw [h.eq_nil (blockCommentTail_eq_nil_iff.mp ht)]
          simp
        | cons u us => exact hc
      rw [List.cons_append, blockCommentTail_cons hd, ih ht]

theorem literalTail_cons {quote c : Char} (cs : List Char) (h : c ≠ '\\') :
    literalTail quote (c :: cs) =
      if c = '\n' then [] else if c = quote then [c] else c :: literalTail quote cs := by
  rw [literalTail]
  · exact fun hc _ => h hc
  · exact fun _ _ hc _ => h hc

theorem literalTail_eq_nil_iff {quote : Char} {cs : List Char} :
    literalTail quote cs = [] ↔ cs = [] ∨ cs.head? = some '\n' := by
  cases cs with
  | nil => simp [literalTail]
  | cons c cs =>
    by_cases hc : c = '\\'
    · cases cs <;> simp [hc, literalTail]
    · rw [literalTail_cons cs hc]
      split
      · next hn => simp [hn]
      · next hn => split <;> simp [hn]

theorem literalTail_cons_append {quote t : Char} {cs ds : List Char} (ts : List Char)
    (hc : t ≠ '\\') (ih : literalTail quote (ts ++ cs) = ts → literalTail quote (ts ++ ds) = ts)
    (ht : literalTail quote (t :: (ts ++ cs)) = t :: ts) :
    literalTail quote (t :: (ts ++ ds)) = t :: ts := by
  rw [literalTail_cons _ hc] at ht ⊢
  by_cases hn : t = '\n'
  · rw [if_pos hn] at ht
    cases ht
  · rw [if_neg hn] at ht ⊢
    by_cases hq : t = quote
    · rw [if_pos hq] at ht ⊢
      exact ht
    · rw [if_neg hq, List.cons_inj_right] at ht ⊢
      exact ih ht

/-- The literal ends alike.  A backslash takes the next character with it, so behind
one the recursion goes two characters on. -/
theorem literalTail_append {quote : Char} {cs ds : List Char} (h : Stops ds cs) :
    ∀ {ts : List Char}, literalTail quote (ts ++ cs) = ts → literalTail quote (ts ++ ds) = ts
  | [], ht => by
    rw [List.nil_append, literalTail_eq_nil_iff] at ht ⊢
    exact h.line ht
  | [t], ht => by
    by_cases hc : t = '\\'
    · have hcs : cs = [] := by
        cases cs with
        | nil => rfl
        | cons c cs =>
          rw [hc, List.singleton_append, literalTail] at ht
          cases ht
      rw [h.eq_nil hcs, hc]
      rfl
    · exact literalTail_cons_append [] hc (literalTail_append h) ht
  | t :: u :: us, ht => by
    by_cases hc : t = '\\'
    · simp only [hc, List.cons_append, literalTail, List.cons_inj_right] at ht ⊢
      exact literalTail_append h ht
    · exact literalTail_cons_append (u :: us) hc (literalTail_append h) ht

/-! ## The lexeme -/

/-- Behind a text that is not empty nothing shows at the front. -/
theorem head?_append_eq {ts : List Char} (h : ts ≠ []) (cs ds : List Char) :
    (ts ++ ds).head? = (ts ++ cs).head? := by
  cases ts with
  | nil => exact absurd rfl h
  | cons t ts => rfl

namespace Lexeme

variable {lineStart : Bool} {c : Char} {ts cs ds : List Char}

theorem numberTail_ne_nil (h : cs.head?.any Char.isDigit = true) : numberTail '.' cs ≠ [] := by
  have hnone : hexadecimalTail? '.' cs = none := by
    rw [← Option.not_isSome_iff_eq_none, hexadecimalTail?_isSome_iff]
    exact fun h => absurd h.1 (by decide)
  rw [numberTail, hnone, Option.getD_none, decimalTail]
  simp only [if_pos, followedBy, List.append_assoc]
  exact List.append_ne_nil_of_left_ne_nil (takeWhile_ne_nil h) _

theorem StartsNumber.append (ht : numberTail c (ts ++ cs) = ts)
    (h : StartsNumber c (ts ++ cs)) : StartsNumber c (ts ++ ds) := by
  rcases h with h | ⟨rfl, h⟩
  · exact Or.inl h
  · have hne : ts ≠ [] := ht ▸ numberTail_ne_nil h
    rw [← head?_append_eq hne cs ds] at h
    exact Or.inr ⟨rfl, h⟩

theorem StartsMark.append (hf : FrontLE ds cs) (h : StartsMark lineStart c (ts ++ cs)) :
    StartsMark lineStart c (ts ++ ds) := by
  have hle := hf.append ts
  exact
    { not_lineComment := fun hc => h.not_lineComment ⟨hc.1, hle.head?_eq (by decide) hc.2⟩
      not_blockComment := fun hc => h.not_blockComment ⟨hc.1, hle.head?_eq (by decide) hc.2⟩
      not_directive := h.not_directive
      ne_quote := h.ne_quote
      ne_apostrophe := h.ne_apostrophe
      not_number := fun hn => h.not_number
        (hn.imp_right fun hd => ⟨hd.1, hle.head?_any (fun _ => isBlank_of_isDigit) hd.2⟩)
      not_word := h.not_word }

/-- The second character of an operator is not blank. -/
theorem isBlank_of_mem_pairOperators {c d : Char} (h : pairOperators.contains (c, d) = true) :
    isBlank d = false := by
  have hall : ∀ p ∈ pairOperators, isBlank p.2 = false := by decide
  exact hall (c, d) (List.contains_iff_mem.mp h)

/-- A mark looks at one character behind its own. -/
theorem mark_congr
    (h : (ds.head?.filter fun d => pairOperators.contains (c, d)) =
      cs.head?.filter fun d => pairOperators.contains (c, d)) : mark c ds = mark c cs := by
  rw [mark, mark, h]

theorem mark_append (hf : FrontLE ds cs) (ht : (mark c (ts ++ cs)).tail = ts) :
    mark c (ts ++ ds) = mark c (ts ++ cs) := by
  cases ts with
  | cons t ts => rfl
  | nil =>
    have hcs : (cs.head?.filter fun d => pairOperators.contains (c, d)) = none := by
      rw [List.nil_append, mark] at ht
      split at ht
      · cases ht
      · next hn => exact hn
    refine mark_congr ?_
    rw [List.nil_append, List.nil_append, hcs, Option.filter_eq_none_iff]
    intro d hd hp
    rw [hf.head?_eq (isBlank_of_mem_pairOperators hp) hd, Option.filter_some, if_pos hp] at hcs
    cases hcs

theorem word_append (hf : FrontLE ds cs) (ht : (word c (ts ++ cs)).tail = ts) :
    word c (ts ++ ds) = word c (ts ++ cs) := by
  have hcs : wordTail (ts ++ cs) = ts := ht
  rw [word, word, hcs, local_wordTail ts cs ds hf hcs]

/-- The lexeme at the front of a text stays the same when the text behind it is
replaced by one that shows no more and stops alike. -/
theorem read_append (hf : FrontLE ds cs) (hs : Stops ds cs)
    (ht : (read lineStart c (ts ++ cs)).tail = ts) :
    read lineStart c (ts ++ ds) = read lineStart c (ts ++ cs) := by
  have hr := reads_read lineStart c (ts ++ cs)
  generalize read lineStart c (ts ++ cs) = l at hr ht
  cases hr with
  | lineComment slash next =>
    replace ht : restOfLine (ts ++ cs) = ts := ht
    have hne : ts ≠ [] := by
      rintro rfl
      rw [List.nil_append] at next ht
      rcases restOfLine_eq_nil_iff.mp ht with rfl | hn
      · cases next
      · rw [next] at hn
        cases hn
    have hd : (ts ++ ds).head? = some '/' := (head?_append_eq hne cs ds).trans next
    rw [(Reads.lineComment slash hd).read_eq, restOfLine_append hs ht, ht]
  | blockComment slash next =>
    replace ht : '*' :: blockCommentTail (ts ++ cs).tail = ts := ht
    cases ts with
    | nil => cases ht
    | cons t ts =>
      obtain ⟨rfl, ht⟩ := List.cons.inj ht
      replace ht : blockCommentTail (ts ++ cs) = ts := ht
      have hd := blockCommentTail_append hs ht
      rw [(Reads.blockComment slash (by rfl)).read_eq, List.cons_append, List.cons_append,
        List.tail_cons, List.tail_cons, hd, ht]
  | directive sign start =>
    replace ht : restOfLine (ts ++ cs) = ts := ht
    rw [(Reads.directive sign start).read_eq, restOfLine_append hs ht, ht]
  | string quote =>
    replace ht : literalTail '"' (ts ++ cs) = ts := ht
    rw [(Reads.string quote).read_eq, literalTail_append hs ht, ht]
  | character quote =>
    replace ht : literalTail '\'' (ts ++ cs) = ts := ht
    rw [(Reads.character quote).read_eq, literalTail_append hs ht, ht]
  | number starts =>
    replace ht : numberTail c (ts ++ cs) = ts := ht
    rw [(Reads.number (starts.append ht)).read_eq, local_numberTail c ts cs ds hf ht, ht]
  | word starts => rw [(Reads.word starts).read_eq, word_append hf ht]
  | mark starts => rw [(Reads.mark (starts.append hf)).read_eq, mark_append hf ht]

end Lexeme

end HeaderLint
