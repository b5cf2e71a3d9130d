import HeaderLint.Pattern.Ignore
import HeaderLint.Proofs.Pattern.Language

/-!
# What ignore patterns accept

Every piece of an ignore pattern is a language of its own, whatever stands behind it, so the
language of a pattern is the concatenation of those of its pieces.  A choice is the union of
the alternatives that count, or the empty text if none does.

`IgnorePiece.matchAll_iff` says that a path matches a pattern if and only if its bytes are in
the language of the pattern.  The proof follows the nesting of pieces and alternatives: put
in front of the row of a language, a piece has the row of the concatenation.
-/

namespace HeaderLint.IgnorePiece

open Row (IsRow singles runs members endings)

/-! ## The language of a pattern -/

mutual

/-- The byte strings that a piece stands for. -/
def language : IgnorePiece → Language UInt8
  | .byte b => {[b]}
  | .one => singles (!isSlash ·)
  | .run => runs (!isSlash ·)
  | .set negated ranges => members negated ranges
  | .anyAbove => 1 + endings isSlash
  | .anyBetween => {[slashByte]} * (1 + endings isSlash)
  | .anyBelow => {[slashByte]} * ⊤
  | .oneOf alternatives => if allVoid alternatives then 1 else languageSome alternatives

/-- The byte strings that pieces in a row stand for. -/
def languageAll : List IgnorePiece → Language UInt8
  | [] => 1
  | p :: ps => p.language * languageAll ps

/-- The byte strings of the alternatives that count. -/
def languageSome : List (List IgnorePiece) → Language UInt8
  | [] => 0
  | ps :: alternatives =>
    if areVoid ps then languageSome alternatives else languageAll ps + languageSome alternatives

end

/-- The byte strings that a pattern accepts. -/
def patternLanguage : List IgnorePiece → Language UInt8
  | [.anyAbove] => ⊤
  | ps => languageAll ps

/-! ## Rows of pieces -/

theorem singles_isSlash : singles isSlash = {[slashByte]} := Row.singles_beq slashByte

theorem isRow_directories {row : List UInt8 → List Bool} {L : Language UInt8}
    (h : IsRow row L) : IsRow (fun bytes => directories bytes (row bytes))
      ((1 + endings isSlash) * L) := by
  rw [add_mul, one_mul]
  exact h.either (h.past isSlash)

mutual

theorem isRow_before {row : List UInt8 → List Bool} {L : Language UInt8} (h : IsRow row L)
    (p : IgnorePiece) :
    IsRow (fun bytes => p.before bytes (row bytes)) (p.language * L) := by
  match p with
  | .byte b =>
    rw [language, ← Row.singles_beq]
    exact h.one (· == b)
  | .one => exact h.one (!isSlash ·)
  | .run => exact h.run (!isSlash ·)
  | .set negated ranges =>
    rw [language, ← Row.singles_ranges]
    exact h.one _
  | .anyAbove => exact isRow_directories h
  | .anyBetween =>
    rw [language, mul_assoc, ← singles_isSlash]
    exact (isRow_directories h).one isSlash
  | .anyBelow =>
    rw [language, mul_assoc, ← singles_isSlash, ← Row.runs_true]
    exact (h.run fun _ => true).one isSlash
  | .oneOf alternatives =>
    simp only [before, language]
    split
    · rwa [one_mul]
    · exact isRow_beforeSome h alternatives

theorem isRow_beforeAll {row : List UInt8 → List Bool} {L : Language UInt8} (h : IsRow row L)
    (ps : List IgnorePiece) :
    IsRow (fun bytes => beforeAll bytes (row bytes) ps) (languageAll ps * L) := by
  match ps with
  | [] => rwa [languageAll, one_mul]
  | p :: ps =>
    rw [languageAll, mul_assoc]
    exact isRow_before (isRow_beforeAll h ps) p

theorem isRow_beforeSome {row : List UInt8 → List Bool} {L : Language UInt8} (h : IsRow row L)
    (alternatives : List (List IgnorePiece)) :
    IsRow (fun bytes => beforeSome bytes (row bytes) alternatives)
      (languageSome alternatives * L) := by
  match alternatives with
  | [] =>
    rw [languageSome, zero_mul]
    exact h.none
  | ps :: alternatives =>
    simp only [beforeSome, languageSome]
    split
    · exact isRow_beforeSome h alternatives
    · rw [add_mul]
      exact (isRow_beforeAll h ps).either (isRow_beforeSome h alternatives)

end

/-- A path matches a pattern if and only if the pattern accepts its bytes. -/
theorem matchAll_iff (ps : List IgnorePiece) (bytes : List UInt8) :
    matchAll ps bytes = true ↔ bytes ∈ patternLanguage ps := by
  have hrow : IsRow (fun bytes => beforeAll bytes (Row.rowOf List.isEmpty bytes) ps)
      (languageAll ps) := by
    have h := isRow_beforeAll Row.isRow_isEmpty ps
    rwa [mul_one] at h
  fun_cases patternLanguage ps with
  | case1 => exact iff_of_true rfl trivial
  | case2 _ hps =>
    rw [matchAll]
    · exact hrow.whole_iff bytes
    · exact hps

end HeaderLint.IgnorePiece
