import HeaderLint.Proofs.Json.Pretty
import HeaderLint.Text.Quoted

/-!
# Quoted text can be read back

No two texts have the same quoted form, whatever stands behind it (`Text.quoted_append_inj`), and a
quoted text has no line end in it (`Text.newline_not_mem_quoted`).

A character that stands for itself is neither a quote nor a backslash.  Every other character
starts with a backslash, and the letter behind it says how to read on (`Text.unquote?_quoteChar`).
The code point of a character goes up to the brace that closes it, and its digits tell the number
(`Text.hexNumber_hexDigits`).  Which characters are written by their code points does not matter
here.
-/

namespace HeaderLint.Text

/-! ## Code points -/

/-- The number of hexadecimal digits. -/
def hexNumber (cs : List Char) : Nat := cs.foldl (fun n c => 16 * n + Json.hexValue c) 0

theorem hexNumber_concat (cs : List Char) (c : Char) :
    hexNumber (cs ++ [c]) = 16 * hexNumber cs + Json.hexValue c := List.foldl_append

theorem hexNumber_hexDigits (n : Nat) : hexNumber (hexDigits n) = n := by
  have hdigit : ∀ m < 16, Json.hexValue m.digitChar = m := by decide
  induction n using Nat.strongRecOn with
  | ind n ih =>
    rw [hexDigits, Nat.toDigits_eq_if (by decide)]
    split
    · next hlt =>
      rw [hexNumber, List.foldl_cons, List.foldl_nil, hdigit n hlt, Nat.mul_zero, Nat.zero_add]
    · next hge =>
      have hrest := ih (n / 16) (by omega)
      rw [hexDigits] at hrest
      rw [hexNumber_concat, hrest, hdigit _ (Nat.mod_lt n (by decide)), Nat.div_add_mod]

theorem exists_digitChar_of_mem_hexDigits {n : Nat} {c : Char} (h : c ∈ hexDigits n) :
    ∃ m : Nat, c = m.digitChar := by
  induction n using Nat.strongRecOn with
  | ind n ih =>
    rw [hexDigits, Nat.toDigits_eq_if (by decide)] at h
    split at h
    · exact ⟨n, List.mem_singleton.mp h⟩
    · next hge =>
      rcases List.mem_append.mp h with h | h
      · exact ih (n / 16) (by omega) h
      · exact ⟨n % 16, List.mem_singleton.mp h⟩

/-! ## Reading characters back -/

/-- The character that a letter behind a backslash stands for. -/
def unquoteLetter (c : Char) : Char :=
  if c = '0' then '\x00'
  else if c = 't' then '\t'
  else if c = 'r' then '\r'
  else if c = 'n' then '\n'
  else c

/-- The character that is written behind a backslash, and the text behind it. -/
def unquoteTail? : List Char → Option (Char × List Char)
  | 'u' :: _ :: rest =>
    some (Char.ofNat (hexNumber (rest.takeWhile (· != '\x7d'))),
      (rest.dropWhile (· != '\x7d')).tail)
  | c :: rest => some (unquoteLetter c, rest)
  | [] => none

/-- The character that is written at the front of a quoted text, and the text behind it.  There is
none at the quote that ends the text. -/
def unquote? : List Char → Option (Char × List Char)
  | [] => none
  | c :: rest =>
    if c = '"' then none else if c = '\\' then unquoteTail? rest else some (c, rest)

theorem unquoteTail?_codePoint (c : Char) (rest : List Char) :
    unquoteTail? ('u' :: '\x7b' :: (hexDigits c.toNat ++ '\x7d' :: rest)) = some (c, rest) := by
  have hdigits : ∀ d ∈ hexDigits c.toNat, (d != '\x7d') = true := by
    intro d hd
    obtain ⟨m, rfl⟩ := exists_digitChar_of_mem_hexDigits hd
    exact bne_iff_ne.mpr (Nat.digitChar_ne _ rfl)
  rw [unquoteTail?, List.takeWhile_append_of_pos hdigits, List.dropWhile_append_of_pos hdigits,
    List.takeWhile_cons_of_neg (by simp), List.dropWhile_cons_of_neg (by simp), List.append_nil,
    hexNumber_hexDigits, Char.ofNat_toNat, List.tail_cons]

/-- What is written for a character is read back. -/
theorem unquote?_quoteChar (c : Char) (rest : List Char) :
    unquote? (quoteChar c ++ rest) = some (c, rest) := by
  rw [quoteChar]
  split
  · next h => rw [h]; rfl
  split
  · next h => rw [h]; rfl
  split
  · next h => rw [h]; rfl
  split
  · next h => rw [h]; rfl
  split
  · next h =>
    rw [Bool.or_eq_true, decide_eq_true_eq, decide_eq_true_eq] at h
    rcases h with rfl | rfl <;> rfl
  split
  · rw [List.append_assoc, List.append_assoc]
    exact unquoteTail?_codePoint c rest
  · next h _ =>
    rw [Bool.or_eq_true, decide_eq_true_eq, decide_eq_true_eq, not_or] at h
    obtain ⟨hquote, hbackslash⟩ := h
    rw [List.singleton_append, unquote?, if_neg hquote, if_neg hbackslash]

/-- A quoted text ends by itself, and no other text has the same quoted form. -/
theorem quoted_append_inj {cs ds rest rest' : List Char}
    (h : quoted cs ++ rest = quoted ds ++ rest') : cs = ds ∧ rest = rest' := by
  rw [quoted, quoted, List.cons_append, List.cons_append, List.cons_append, List.cons_append,
    List.append_assoc, List.append_assoc] at h
  exact flatMap_append_quote_inj unquote?_quoteChar (fun _ => rfl) (List.cons.inj h).2

/-! ## Line ends -/

theorem newline_not_mem_quoteChar (c : Char) : '\n' ∉ quoteChar c := by
  rw [quoteChar]
  split
  · decide
  split
  · decide
  split
  · decide
  split
  · decide
  split
  · next hnewline _ => simpa [eq_comm] using hnewline
  split
  · have hdigits : '\n' ∉ hexDigits c.toNat := by
      intro h
      obtain ⟨m, hm⟩ := exists_digitChar_of_mem_hexDigits h
      exact Nat.digitChar_ne _ rfl hm.symm
    simpa using hdigits
  · next hnewline _ _ => simpa [eq_comm] using hnewline

/-- A quoted text is on one line. -/
theorem newline_not_mem_quoted (cs : List Char) : '\n' ∉ quoted cs := by
  rw [quoted, List.cons_append, List.mem_cons, List.mem_append, List.mem_flatMap,
    List.mem_singleton]
  rintro (h | ⟨c, -, hc⟩ | h)
  · exact absurd h (by decide)
  · exact newline_not_mem_quoteChar c hc
  · exact absurd h (by decide)

end HeaderLint.Text
