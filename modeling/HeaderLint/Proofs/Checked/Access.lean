import HeaderLint.Proofs.Signature.Spans

/-!
# Checked accesses

The functions of a list of tokens can be found with places alone: a token is taken by its place, a
stretch of tokens by two places, and places are added and subtracted as the search goes on.  Each
of these has a fault of its own.  No token may stand at a place, a stretch may begin behind its
end or end behind the list, a difference may be below zero, and a sum may be greater than what a
number can hold (`limit`).

Here are the four accesses, with the condition under which each gives its result.
-/

namespace HeaderLint

/-- What an access to a list by place can fail with. -/
inductive Fault where
  /-- No element stands at the place. -/
  | index
  /-- The stretch begins behind its end, or ends behind the list. -/
  | range
  /-- The difference is below zero. -/
  | belowZero
  /-- The sum is greater than any number. -/
  | overflow
deriving DecidableEq, Repr

namespace Checked

/-- The element at a place. -/
def item {α : Type} (xs : List α) (i : Nat) : Except Fault α :=
  match xs[i]? with
  | some x => .ok x
  | none => .error .index

/-- The tokens from one place up to another. -/
def range (ts : List Token) (first last : Nat) : Except Fault (List Token) :=
  if first ≤ last ∧ last ≤ ts.length then .ok (slice ts first last) else .error .range

/-- The difference of two numbers. -/
def less (m n : Nat) : Except Fault Nat := if n ≤ m then .ok (m - n) else .error .belowZero

/-- The sum of two numbers. -/
def sum (limit m n : Nat) : Except Fault Nat :=
  if m + n ≤ limit then .ok (m + n) else .error .overflow

section
variable {α : Type} {xs : List α} {ts : List Token} {i first last limit m n : Nat}

theorem item_eq (h : i < xs.length) : item xs i = .ok xs[i] := by
  rw [item, List.getElem?_eq_getElem h]

theorem item_append_length (xs ys : List α) (y : α) : item (xs ++ y :: ys) xs.length = .ok y := by
  rw [item, List.getElem?_append_right (Nat.le_refl _), Nat.sub_self]
  rfl

theorem item_zero (h : xs ≠ []) (x : α) : item xs 0 = .ok (xs.head?.getD x) := by
  cases xs with
  | nil => exact absurd rfl h
  | cons => rfl

theorem range_eq (hfirst : first ≤ last) (hlast : last ≤ ts.length) :
    range ts first last = .ok (slice ts first last) :=
  if_pos ⟨hfirst, hlast⟩

theorem range_append (ts us : List Token) : range (ts ++ us) 0 ts.length = .ok ts := by
  rw [range_eq (Nat.zero_le _) (by simp), slice, List.take_left, List.drop_zero]

theorem less_eq (h : n ≤ m) : less m n = .ok (m - n) := if_pos h

theorem eq_add_of_sum_eq_ok {k : Nat} (h : sum limit m n = .ok k) : k = m + n := by
  rw [sum] at h
  split at h
  · exact (Except.ok.inj h).symm
  · cases h

theorem sum_eq (h : m + n ≤ limit) : sum limit m n = .ok (m + n) := if_pos h

end

@[simp]
theorem ok_bind {α β : Type} (a : α) (f : α → Except Fault β) : (Except.ok a >>= f) = f a := rfl

@[simp]
theorem pure_eq_ok {α : Type} (a : α) : (pure a : Except Fault α) = .ok a := rfl

theorem exists_of_bind_eq_ok {α β : Type} {x : Except Fault α} {f : α → Except Fault β} {b : β}
    (h : x >>= f = .ok b) : ∃ a, x = .ok a ∧ f a = .ok b := by
  cases x with
  | error => cases h
  | ok a => exact ⟨a, rfl, h⟩

theorem mapM_eq_ok {α β : Type} {f : α → Except Fault β} {g : α → β} {xs : List α}
    (h : ∀ x ∈ xs, f x = .ok (g x)) : xs.mapM f = .ok (xs.map g) := by
  induction xs with
  | nil => rfl
  | cons x xs ih =>
    obtain ⟨hx, hxs⟩ := List.forall_mem_cons.mp h
    rw [List.mapM_cons, hx, ih hxs]
    rfl

end Checked

end HeaderLint
