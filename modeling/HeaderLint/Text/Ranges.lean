/-!
# Ranges of code points

A property of characters is a list of ranges of code points, each given by its
first and its last member.  A character has the property when some range holds
it.
-/

namespace HeaderLint.Text

/-- Some range of the table holds the code point of the character. -/
def inRanges (table : List (Nat × Nat)) (c : Char) : Bool :=
  table.any fun r => decide (r.1 ≤ c.toNat) && decide (c.toNat ≤ r.2)

theorem inRanges_eq_true_iff {table : List (Nat × Nat)} {c : Char} :
    inRanges table c = true ↔ ∃ r ∈ table, r.1 ≤ c.toNat ∧ c.toNat ≤ r.2 := by
  simp [inRanges]

end HeaderLint.Text
