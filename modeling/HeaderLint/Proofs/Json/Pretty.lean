import HeaderLint.Json
import HeaderLint.Proofs.Text.Delimited

/-!
# The pretty form tells the value

No two values have the same pretty form (`Json.pretty_injective`), so what is said of a value may
be said of its text.

At every level of nesting the form of a value ends by itself (`Json.isDelimited_prettyAt`).  The
first character tells null, the truth values, numbers, strings, arrays and objects apart
(`Json.mark`).  A string ends at its quote because no character is written with a quote in front,
and every character can be read back (`Json.unescape?_escapeChar`).  The members of an array or
object have a comma before them or are behind the last one, where a line break comes first.
-/

namespace HeaderLint.Json

open Text

/-! ## Strings -/

/-- The number of a hexadecimal digit. -/
def hexValue (c : Char) : Nat := "0123456789abcdef".toList.findIdx (· == c)

theorem hexValue_hexDigit : ∀ n < 16, hexValue (hexDigit n) = n := by decide

/-- The character that a letter behind a backslash stands for. -/
def unescapeLetter (c : Char) : Char :=
  if c = 'n' then '\n'
  else if c = 'r' then '\r'
  else if c = 't' then '\t'
  else if c = 'b' then '\x08'
  else if c = 'f' then '\x0c'
  else c

/-- The character that is written behind a backslash, and the text behind it. -/
def unescapeTail? : List Char → Option (Char × List Char)
  | 'u' :: _ :: _ :: high :: low :: rest =>
    some (Char.ofNat (16 * hexValue high + hexValue low), rest)
  | c :: rest => some (unescapeLetter c, rest)
  | [] => none

/-- The character that is written at the front of the text of a string, and the text behind it.
There is none at the quote that ends the string. -/
def unescape? : List Char → Option (Char × List Char)
  | [] => none
  | c :: rest =>
    if c = '"' then none else if c = '\\' then unescapeTail? rest else some (c, rest)

/-- What is written for a character is read back. -/
theorem unescape?_escapeChar (c : Char) (rest : List Char) :
    unescape? (escapeChar c ++ rest) = some (c, rest) := by
  rw [escapeChar]
  split
  · next h =>
    rw [Bool.or_eq_true, decide_eq_true_eq, decide_eq_true_eq] at h
    rcases h with rfl | rfl <;> rfl
  split
  · next h => rw [h]; rfl
  split
  · next h => rw [h]; rfl
  split
  · next h => rw [h]; rfl
  split
  · next h => rw [h]; rfl
  split
  · next h => rw [h]; rfl
  split
  · next h =>
    have hhigh := hexValue_hexDigit (c.toNat / 16) (by omega)
    have hlow := hexValue_hexDigit (c.toNat % 16) (by omega)
    change some (Char.ofNat (16 * hexValue (hexDigit (c.toNat / 16)) +
      hexValue (hexDigit (c.toNat % 16))), rest) = some (c, rest)
    rw [hhigh, hlow, Nat.div_add_mod, Char.ofNat_toNat]
  · next h _ _ _ _ _ _ =>
    rw [Bool.or_eq_true, decide_eq_true_eq, decide_eq_true_eq, not_or] at h
    obtain ⟨hquote, hbackslash⟩ := h
    rw [List.singleton_append, unescape?, if_neg hquote, if_neg hbackslash]

theorem quote_append_inj {s t : String} {rest rest' : List Char}
    (h : (quote s).toList ++ rest = (quote t).toList ++ rest') : s = t ∧ rest = rest' := by
  rw [quote, quote, String.toList_ofList, String.toList_ofList, List.cons_append, List.cons_append,
    List.cons_append, List.cons_append, List.append_assoc, List.append_assoc] at h
  obtain ⟨hst, hrest⟩ := flatMap_append_quote_inj unescape?_escapeChar (fun _ => rfl)
    (List.cons.inj h).2
  exact ⟨String.toList_inj.mp hst, hrest⟩

/-! ## Arrays and objects -/

/-- The spaces in front of a line. -/
def indentation (depth : Nat) : List Char := List.replicate (2 * depth) ' '

theorem toList_newline (depth : Nat) : (newline depth).toList = '\n' :: indentation depth := by
  rw [newline, indentation, String.toList_append, String.toList_ofList, String.toList_ofList]
  rfl

theorem intercalate_cons {α : Type} (separator item : List α) (items : List (List α)) :
    separator.intercalate (item :: items) = item ++ items.flatMap (separator ++ ·) := by
  induction items generalizing item with
  | nil => rw [List.intercalate_singleton, List.flatMap_nil, List.append_nil]
  | cons next items ih =>
    rw [List.intercalate_cons_cons, ih, List.flatMap_cons, List.append_assoc, List.append_assoc]

theorem toList_block_nil (opening closing : String) (depth : Nat) :
    (block opening closing depth []).toList = opening.toList ++ closing.toList :=
  String.toList_append

/-- The members of a block, a comma before each, and its end. -/
def blockMembers {α : Type} (depth : Nat) (closing : String) (write : α → String) :
    List α → List Char :=
  marked (',' :: '\n' :: indentation (depth + 1)) ('\n' :: (indentation depth ++ closing.toList))
    fun a => (write a).toList

/-- Between its brackets a block is its members without the first comma. -/
theorem toList_block_cons {α : Type} (opening closing : String) (depth : Nat) (write : α → String)
    (a : α) (as : List α) :
    ∃ tail, blockMembers depth closing write (a :: as) = ',' :: '\n' :: tail ∧
      (block opening closing depth ((a :: as).map write)).toList =
        opening.toList ++ '\n' :: tail := by
  have hcomma : ",".toList = [','] := rfl
  refine ⟨indentation (depth + 1) ++ ((write a).toList ++ blockMembers depth closing write as),
    by rw [blockMembers, marked_cons]; rfl, ?_⟩
  rw [block, List.map_cons, List.isEmpty_cons, if_neg Bool.false_ne_true, blockMembers, marked]
  simp only [String.toList_append, String.toList_intercalate, List.map_cons, List.map_map,
    intercalate_cons, List.flatMap_map, hcomma, toList_newline, List.append_assoc,
    List.nil_append, List.cons_append, Function.comp_apply]

/-- Members between brackets end by themselves if each member does. -/
theorem isDelimited_block {α : Type} {write : α → String} {opening closing : String} {c : Char}
    (depth : Nat) (hclosing : closing.toList = [c]) (hc : c ≠ '\n') {as : List α}
    (h : ∀ a ∈ as, IsDelimited (fun b => (write b).toList) a) :
    IsDelimited (fun bs : List α => (block opening closing depth (bs.map write)).toList) as := by
  have hmembers : IsDelimited (blockMembers depth closing write) as :=
    isDelimited_marked (by decide) (by decide) (by decide) h
  intro bs rest rest' hrest hrest' heq
  dsimp only at heq
  cases as with
  | nil =>
    rw [List.map_nil, toList_block_nil, hclosing, List.append_assoc] at heq
    cases bs with
    | nil =>
      rw [List.map_nil, toList_block_nil, hclosing, List.append_assoc] at heq
      exact ⟨rfl, (List.cons.inj (List.append_cancel_left heq)).2⟩
    | cons b bs =>
      obtain ⟨_, -, hb⟩ := toList_block_cons opening closing depth write b bs
      rw [hb, List.append_assoc] at heq
      exact absurd (List.cons.inj (List.append_cancel_left heq)).1 hc
  | cons a as =>
    obtain ⟨_, hcomma, ha⟩ := toList_block_cons opening closing depth write a as
    rw [ha, List.append_assoc] at heq
    cases bs with
    | nil =>
      rw [List.map_nil, toList_block_nil, hclosing, List.append_assoc] at heq
      exact absurd (List.cons.inj (List.append_cancel_left heq)).1.symm hc
    | cons b bs =>
      obtain ⟨_, hcomma', hb⟩ := toList_block_cons opening closing depth write b bs
      rw [hb, List.append_assoc] at heq
      -- With a comma in front the first member is like the others.
      refine hmembers (b :: bs) rest rest' hrest hrest' ?_
      rw [hcomma, hcomma']
      exact congrArg (',' :: ·) (List.append_cancel_left heq)

/-! ## Values -/

theorem prettyItems_eq_map (depth : Nat) (vs : List Json) :
    prettyItems depth vs = vs.map (prettyAt depth) := by
  induction vs with
  | nil => rfl
  | cons v vs ih => rw [prettyItems, ih, List.map_cons]

/-- A field on its line. -/
def prettyField (depth : Nat) (field : String × Json) : String :=
  quote field.1 ++ ": " ++ field.2.prettyAt depth

theorem prettyFields_eq_map (depth : Nat) (fields : List (String × Json)) :
    prettyFields depth fields = fields.map (prettyField depth) := by
  induction fields with
  | nil => rfl
  | cons field fields ih => rw [prettyFields, ih, List.map_cons]; rfl

/-- The first character of a value, with zero for every digit. -/
def mark : Json → Char
  | .null => 'n'
  | .bool true => 't'
  | .bool false => 'f'
  | .num _ => '0'
  | .str _ => '"'
  | .arr _ => '['
  | .obj _ => '\x7b'

/-- The character, or zero for a digit. -/
def markOf (c : Char) : Char := if c.isDigit then '0' else c

theorem head?_block {opening : String} {c : Char} (h : opening.toList = [c]) (closing : String)
    (depth : Nat) (items : List String) :
    (block opening closing depth items).toList.head? = some c := by
  rw [block]
  split <;> simp only [String.toList_append, h, List.append_assoc, List.cons_append,
    List.head?_cons]

theorem map_markOf_head?_repr (n : Nat) : n.repr.toList.head?.map markOf = some '0' := by
  have hne : n.repr.toList ≠ [] := by
    rw [Nat.toList_repr]
    exact Nat.toDigits_ne_nil
  obtain ⟨c, cs, hcs⟩ := List.exists_cons_of_ne_nil hne
  have hc : c.isDigit = true := isDigit_of_mem_repr (n := n) (hcs ▸ List.mem_cons_self)
  rw [hcs, List.head?_cons, Option.map_some, markOf, if_pos hc]

theorem map_markOf_head?_prettyAt (depth : Nat) (v : Json) :
    (v.prettyAt depth).toList.head?.map markOf = some v.mark := by
  cases v with
  | null => rw [prettyAt]; rfl
  | bool b => cases b <;> rw [prettyAt] <;> rfl
  | num n => rw [prettyAt, map_markOf_head?_repr, mark]
  | str s => rw [prettyAt, quote, String.toList_ofList]; rfl
  | arr items => rw [prettyAt, head?_block rfl]; rfl
  | obj fields => rw [prettyAt, head?_block rfl]; rfl

/-- What starts two texts alike is of the same sort. -/
theorem mark_eq_of_append_eq {depth : Nat} {v w : Json} {rest rest' : List Char}
    (h : (v.prettyAt depth).toList ++ rest = (w.prettyAt depth).toList ++ rest') :
    v.mark = w.mark := by
  obtain ⟨c, hc, hcv⟩ := Option.map_eq_some_iff.mp (map_markOf_head?_prettyAt depth v)
  obtain ⟨d, hd, hdw⟩ := Option.map_eq_some_iff.mp (map_markOf_head?_prettyAt depth w)
  have hhead := congrArg List.head? h
  rw [List.head?_append, List.head?_append, hc, hd, Option.some_or, Option.some_or] at hhead
  rw [← hcv, ← hdw, Option.some.inj hhead]

theorem isDelimited_prettyField {depth : Nat} {v : Json}
    (h : IsDelimited (fun v : Json => (v.prettyAt depth).toList) v) (key : String) :
    IsDelimited (fun field => (prettyField depth field).toList) (key, v) := by
  rintro ⟨key', v'⟩ rest rest' hrest hrest' heq
  simp only [prettyField, String.toList_append, List.append_assoc] at heq
  obtain ⟨hkey, htail⟩ := quote_append_inj heq
  obtain ⟨hvalue, hend⟩ := h v' rest rest' hrest hrest' (List.append_cancel_left htail)
  exact ⟨by rw [hkey, hvalue], hend⟩

/-- The form of a value ends by itself at every level of nesting. -/
theorem isDelimited_prettyAt (depth : Nat) (v : Json) :
    IsDelimited (fun v : Json => (v.prettyAt depth).toList) v := by
  intro w rest rest' hrest hrest' heq
  dsimp only at heq
  have hmark : v.mark = w.mark := mark_eq_of_append_eq heq
  revert heq
  match hv : v, w, hmark with
  | .null, .null, _ => exact fun heq => ⟨rfl, List.append_cancel_left heq⟩
  | .bool true, .bool true, _ => exact fun heq => ⟨rfl, List.append_cancel_left heq⟩
  | .bool false, .bool false, _ => exact fun heq => ⟨rfl, List.append_cancel_left heq⟩
  | .num n, .num m, _ =>
    intro heq
    rw [prettyAt, prettyAt] at heq
    obtain ⟨rfl, hend⟩ := isDelimited_repr n m rest rest' hrest hrest' heq
    exact ⟨rfl, hend⟩
  | .str s, .str t, _ =>
    intro heq
    rw [prettyAt, prettyAt] at heq
    obtain ⟨rfl, hend⟩ := quote_append_inj heq
    exact ⟨rfl, hend⟩
  | .arr items, .arr items', _ =>
    intro heq
    rw [prettyAt, prettyAt, prettyItems_eq_map, prettyItems_eq_map] at heq
    have hitems : ∀ item ∈ items,
        IsDelimited (fun v : Json => (v.prettyAt (depth + 1)).toList) item := fun item hitem =>
      isDelimited_prettyAt (depth + 1) item
    obtain ⟨rfl, hend⟩ := isDelimited_block depth rfl (by decide) hitems items' rest rest' hrest
      hrest' heq
    exact ⟨rfl, hend⟩
  | .obj fields, .obj fields', _ =>
    intro heq
    rw [prettyAt, prettyAt, prettyFields_eq_map, prettyFields_eq_map] at heq
    have hfields : ∀ field ∈ fields,
        IsDelimited (fun field => (prettyField (depth + 1) field).toList) field :=
      fun field hfield => isDelimited_prettyField (isDelimited_prettyAt (depth + 1) field.2) field.1
    obtain ⟨rfl, hend⟩ := isDelimited_block depth rfl (by decide) hfields fields' rest rest' hrest
      hrest' heq
    exact ⟨rfl, hend⟩
termination_by sizeOf v
decreasing_by
  · have hlt := List.sizeOf_lt_of_mem hitem
    rw [hv, Json.arr.sizeOf_spec]
    omega
  · have hlt := List.sizeOf_lt_of_mem hfield
    have hfield : sizeOf field.2 < sizeOf field := by
      rw [Prod.mk.sizeOf_spec]
      omega
    rw [hv, Json.obj.sizeOf_spec]
    omega

theorem pretty_injective {v w : Json} (h : v.pretty = w.pretty) : v = w := by
  have hnil : EndsNumber [] := fun _ hc => nomatch hc
  have heq : (v.prettyAt 0).toList ++ [] = (w.prettyAt 0).toList ++ [] := by
    rw [List.append_nil, List.append_nil]
    exact congrArg String.toList h
  exact (isDelimited_prettyAt 0 v w [] [] hnil hnil heq).1

end HeaderLint.Json
