/-!
# Rows

A pattern is matched against a text from the last piece to the first.  The *row* of a
pattern has a truth value for each rest of the text, the longest first and the empty
one last, which says whether the pattern matches that rest.  A piece in front turns
the row of what follows it into the row of both.  So the work is the number of pieces
times the length of the text, however many runs a pattern holds.

`rowOf m text` is the row of a set `m` of texts.  Each operation on rows has a lemma
that says which set its result is the row of.
-/

namespace HeaderLint.Row

variable {α : Type}

/-- The row of the texts that `m` accepts. -/
def rowOf (m : List α → Bool) : List α → List Bool
  | [] => [m []]
  | a :: text => m (a :: text) :: rowOf m text

/-- The value of a row for the whole text. -/
def whole (row : List Bool) : Bool := row.headD false

@[simp] theorem whole_cons (b : Bool) (row : List Bool) : whole (b :: row) = b := rfl

@[simp] theorem whole_rowOf (m : List α → Bool) (text : List α) :
    whole (rowOf m text) = m text := by
  cases text <;> rfl

theorem map_rowOf (g : Bool → Bool) (m : List α → Bool) (text : List α) :
    (rowOf m text).map g = rowOf (fun t => g (m t)) text := by
  induction text with
  | nil => rfl
  | cons a text ih => exact congrArg (_ :: ·) ih

/-- The last value of a row is that for the empty rest. -/
theorem getLastD_rowOf (m : List α → Bool) (text : List α) (b : Bool) :
    (rowOf m text).getLastD b = m [] := by
  induction text generalizing b with
  | nil => rfl
  | cons a text ih => rw [rowOf, List.getLastD_cons, ih]

/-! ## One element -/

/-- The row of one accepted element in front. -/
def one (accept : α → Bool) : List α → List Bool → List Bool
  | [], _ => [false]
  | a :: text, row => (accept a && whole row.tail) :: one accept text row.tail

/-- One accepted element and then a text of `m`. -/
def isOne (accept : α → Bool) (m : List α → Bool) : List α → Bool
  | [] => false
  | a :: text => accept a && m text

theorem one_rowOf (accept : α → Bool) (m : List α → Bool) (text : List α) :
    one accept text (rowOf m text) = rowOf (isOne accept m) text := by
  induction text with
  | nil => rfl
  | cons a text ih => simp [one, rowOf, isOne, ih]

/-! ## Runs -/

/-- The row of any run of accepted elements in front. -/
def run (accept : α → Bool) : List α → List Bool → List Bool
  | [], row => [whole row]
  | a :: text, row =>
    let below := run accept text row.tail
    (whole row || (accept a && whole below)) :: below

/-- Any run of accepted elements and then a text of `m`. -/
def isRun (accept : α → Bool) (m : List α → Bool) : List α → Bool
  | [] => m []
  | a :: text => m (a :: text) || (accept a && isRun accept m text)

theorem run_rowOf (accept : α → Bool) (m : List α → Bool) (text : List α) :
    run accept text (rowOf m text) = rowOf (isRun accept m) text := by
  induction text with
  | nil => rfl
  | cons a text ih => simp [run, rowOf, isRun, ih]

/-! ## Up to a separator -/

/-- The row of anything that ends with a separator in front. -/
def past (separates : α → Bool) : List α → List Bool → List Bool
  | [], _ => [false]
  | a :: text, row =>
    let below := past separates text row.tail
    ((separates a && whole row.tail) || whole below) :: below

/-- Anything that ends with a separator and then a text of `m`. -/
def isPast (separates : α → Bool) (m : List α → Bool) : List α → Bool
  | [] => false
  | a :: text => (separates a && m text) || isPast separates m text

theorem past_rowOf (separates : α → Bool) (m : List α → Bool) (text : List α) :
    past separates text (rowOf m text) = rowOf (isPast separates m) text := by
  induction text with
  | nil => rfl
  | cons a text ih => simp [past, rowOf, isPast, ih]

/-! ## Choices -/

/-- The row of the texts of either row. -/
def either (row other : List Bool) : List Bool := List.zipWith (· || ·) row other

theorem either_rowOf (m n : List α → Bool) (text : List α) :
    either (rowOf m text) (rowOf n text) = rowOf (fun t => m t || n t) text := by
  induction text with
  | nil => rfl
  | cons a text ih => exact congrArg (_ :: ·) ih

end HeaderLint.Row
