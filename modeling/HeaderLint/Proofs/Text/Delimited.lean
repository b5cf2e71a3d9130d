import Mathlib.Data.List.TakeWhile

/-!
# Texts that end by themselves

A text that is written for a value ends by itself if what stands behind it does not matter: in
front of any rest it is the text of no other value, and the rest starts where it ends
(`IsDelimited`).  Texts that end by themselves can be written one behind the other and be told
apart again.

A number ends by itself in front of a text that starts with no digit (`isDelimited_repr`), so
that much is asked of every rest.  Characters end by themselves in front of a quote if each of them
can be read back (`flatMap_append_quote_inj`).  A list of texts with a mark before each and another
mark behind the last ends by itself if the texts do (`isDelimited_marked`).
-/

namespace HeaderLint.Text

/-- A number in front of the text ends there. -/
def EndsNumber (rest : List Char) : Prop := ∀ c ∈ rest.head?, c.isDigit = false

theorem endsNumber_cons {c : Char} (h : c.isDigit = false) (rest : List Char) :
    EndsNumber (c :: rest) := by
  intro d hd
  rw [List.head?_cons, Option.mem_some_iff] at hd
  rw [← hd, h]

/-- In front of texts that end a number, what is written for the value is written for no other
value, and ends where the rest starts. -/
def IsDelimited {α : Type} (write : α → List Char) (a : α) : Prop :=
  ∀ (b : α) (rest rest' : List Char), EndsNumber rest → EndsNumber rest' →
    write a ++ rest = write b ++ rest' → a = b ∧ rest = rest'

/-! ## Numbers -/

theorem isDigit_of_mem_repr {n : Nat} {c : Char} (hc : c ∈ n.repr.toList) : c.isDigit = true := by
  rw [Nat.toList_repr] at hc
  exact Nat.isDigit_of_mem_toDigits (by decide) (by decide) hc

theorem takeWhile_isDigit_repr (n : Nat) {rest : List Char} (h : EndsNumber rest) :
    (n.repr.toList ++ rest).takeWhile Char.isDigit = n.repr.toList := by
  have hrest : rest.takeWhile Char.isDigit = [] := by
    cases rest with
    | nil => rfl
    | cons c rest =>
      rw [List.takeWhile_cons, h c rfl]
      rfl
  rw [List.takeWhile_append_of_pos fun c => isDigit_of_mem_repr, hrest, List.append_nil]

theorem isDelimited_repr (n : Nat) : IsDelimited (fun n : Nat => n.repr.toList) n := by
  intro m rest rest' hrest hrest' h
  dsimp only at h
  have hdigits := congrArg (List.takeWhile Char.isDigit) h
  rw [takeWhile_isDigit_repr n hrest, takeWhile_isDigit_repr m hrest'] at hdigits
  rw [hdigits] at h
  refine ⟨?_, List.append_cancel_left h⟩
  rw [Nat.toList_repr, Nat.toList_repr] at hdigits
  calc
    n = Nat.ofDigitChars 10 (Nat.toDigits 10 n) 0 := Nat.ofDigitChars_ten_toDigits.symm
    _ = Nat.ofDigitChars 10 (Nat.toDigits 10 m) 0 := by rw [hdigits]
    _ = m := Nat.ofDigitChars_ten_toDigits

/-! ## Characters before a quote -/

/-- Characters in front of a quote can be told from what is written for them, if each can be read
back and nothing is read at the quote. -/
theorem flatMap_append_quote_inj {write : Char → List Char}
    {read? : List Char → Option (Char × List Char)}
    (hread : ∀ c rest, read? (write c ++ rest) = some (c, rest))
    (hquote : ∀ rest, read? ('"' :: rest) = none) {cs ds rest rest' : List Char}
    (h : cs.flatMap write ++ '"' :: rest = ds.flatMap write ++ '"' :: rest') :
    cs = ds ∧ rest = rest' := by
  have hfront := congrArg read? h
  induction cs generalizing ds with
  | nil =>
    cases ds with
    | nil => exact ⟨rfl, (List.cons.inj h).2⟩
    | cons d ds =>
      rw [List.flatMap_nil, List.nil_append, hquote, List.flatMap_cons, List.append_assoc,
        hread] at hfront
      cases hfront
  | cons c cs ih =>
    rw [List.flatMap_cons, List.append_assoc, hread] at hfront
    cases ds with
    | nil =>
      rw [List.flatMap_nil, List.nil_append, hquote] at hfront
      cases hfront
    | cons d ds =>
      rw [List.flatMap_cons, List.append_assoc, hread, Option.some.injEq, Prod.mk.injEq] at hfront
      obtain ⟨rfl, htail⟩ := hfront
      obtain ⟨rfl, hrest⟩ := ih htail (congrArg read? htail)
      exact ⟨rfl, hrest⟩

/-! ## Lists -/

/-- Texts behind marks, and another mark behind the last of them. -/
def marked {α : Type} (mark last : List Char) (write : α → List Char) (as : List α) : List Char :=
  (as.flatMap fun a => mark ++ write a) ++ last

theorem marked_cons {α : Type} (mark last : List Char) (write : α → List Char) (a : α)
    (as : List α) :
    marked mark last write (a :: as) = mark ++ (write a ++ marked mark last write as) := by
  rw [marked, marked, List.flatMap_cons, List.append_assoc, List.append_assoc]

section
variable {α : Type} {write : α → List Char} {c d : Char} {mark last : List Char}

theorem endsNumber_marked (hc : c.isDigit = false) (hd : d.isDigit = false) (as : List α)
    (rest : List Char) : EndsNumber (marked (c :: mark) (d :: last) write as ++ rest) := by
  cases as with
  | nil => exact endsNumber_cons hd _
  | cons a as => exact endsNumber_cons hc _

/-- The first characters of the two marks tell whether there is another text. -/
theorem isDelimited_marked (hc : c.isDigit = false) (hd : d.isDigit = false) (hne : c ≠ d)
    {as : List α} (h : ∀ a ∈ as, IsDelimited write a) :
    IsDelimited (marked (c :: mark) (d :: last) write) as := by
  intro bs rest rest' hrest hrest' heq
  induction as generalizing bs with
  | nil =>
    cases bs with
    | nil => exact ⟨rfl, List.append_cancel_left heq⟩
    | cons b bs => exact absurd (List.cons.inj heq).1.symm hne
  | cons a as ih =>
    obtain ⟨ha, has⟩ := List.forall_mem_cons.mp h
    cases bs with
    | nil => exact absurd (List.cons.inj heq).1 hne
    | cons b bs =>
      rw [marked_cons, marked_cons, List.append_assoc, List.append_assoc, List.append_assoc,
        List.append_assoc, List.append_cancel_left_eq] at heq
      obtain ⟨rfl, htail⟩ := ha b _ _ (endsNumber_marked hc hd as rest)
        (endsNumber_marked hc hd bs rest') heq
      obtain ⟨rfl, hend⟩ := ih has bs htail
      exact ⟨rfl, hend⟩

end

end HeaderLint.Text
