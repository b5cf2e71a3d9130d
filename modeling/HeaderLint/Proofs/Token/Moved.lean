import HeaderLint.Token.Scan

/-!
# Tokens that are moved

`Token.moved` puts a token at another place.  What a token is does not depend on where
it stands, and neither does a scan: from a place further down it finds the same tokens
further down (`Token.scanFrom_down`).
-/

namespace HeaderLint

/-! ## Places further down -/

namespace Position

/-- The place in the same column some lines further down. -/
def down (lines : Nat) (p : Position) : Position := { p with line := p.line + lines }

theorem line_down (lines : Nat) (p : Position) : (p.down lines).line = p.line + lines := rfl

theorem column_down (lines : Nat) (p : Position) : (p.down lines).column = p.column := rfl

theorem down_comm (m n : Nat) (p : Position) : (p.down m).down n = (p.down n).down m := by
  rw [down, down, down, down, Nat.add_right_comm]

theorem line_down_start (lines : Nat) : (start.down lines).line = lines + 1 := Nat.add_comm 1 lines

theorem step_down (lines : Nat) (p : Position) (c : Char) :
    (p.down lines).step c = (p.step c).down lines := by
  rw [step, step]
  split
  · rw [down, down, Nat.add_right_comm]
  · rfl

theorem advance_down (lines : Nat) (p : Position) (cs : List Char) :
    (p.down lines).advance cs = (p.advance cs).down lines := by
  induction cs generalizing p with
  | nil => rfl
  | cons c cs ih => rw [advance_cons, advance_cons, step_down, ih]

/-- Two places keep their order when both go down alike. -/
theorem before_down (lines : Nat) (p q : Position) :
    (p.down lines).before (q.down lines) = p.before q := by
  rw [Bool.eq_iff_iff, before_iff, before_iff, line_down, line_down, column_down, column_down,
    Nat.add_lt_add_iff_right, Nat.add_right_cancel_iff]

end Position

/-! ## Tokens at other places -/

namespace Token

/-- The token at another place. -/
def moved (f : Position → Position) (t : Token) : Token := { t with position := f t.position }

variable (f : Position → Position) (t : Token)

@[simp] theorem kind_moved : (t.moved f).kind = t.kind := rfl

@[simp] theorem text_moved : (t.moved f).text = t.text := rfl

@[simp] theorem position_moved : (t.moved f).position = f t.position := rfl

@[simp] theorem isSymbol_moved (symbol : String) :
    (t.moved f).isSymbol symbol = t.isSymbol symbol :=
  rfl

theorem significant_map_moved (ts : List Token) :
    significant (ts.map (moved f)) = (significant ts).map (moved f) := by
  rw [significant, significant, List.filter_map]
  rfl

/-- From a place further down a scan finds the same tokens further down. -/
theorem scanFrom_down (lines : Nat) (p : Position) (lineStart : Bool) (cs : List Char) :
    scanFrom (p.down lines) lineStart cs =
      (scanFrom p lineStart cs).map (moved (.down lines)) := by
  fun_induction scanFrom p lineStart cs with
  | case1 p lineStart =>
    rw [scanFrom_nil]
    rfl
  | case2 p lineStart cs ih =>
    rw [scanFrom_newline, Position.step_down, ih]
    rfl
  | case3 p lineStart c cs hn hb ih => rw [scanFrom_blank _ _ _ hn hb, Position.step_down, ih]
  | case4 p lineStart c cs hn hb l ih =>
    rw [Bool.not_eq_true] at hb
    rw [scanFrom_lexeme _ _ _ hn hb, Position.advance_down, ih]
    rfl

end Token

end HeaderLint
