import HeaderLint.Proofs.DocFormat.Tagged
import HeaderLint.Proofs.Token.Maximal

/-!
# Words and marks among the tokens of a source

Keywords and identifiers are words, and the table tells the ones from the others
(`Token.isScannedWord_of_mem_scan`).  The kind of a mark of one character is told by the tables of
marks (`Token.mem_of_isSymbol`).
-/

namespace HeaderLint

open Text
open DocLine (IsWord)

namespace Token

/-- The token is a word, with the kind that a scan gives it. -/
structure IsScannedWord (t : Token) : Prop where
  isWord : IsWord t.text.toList
  starts : t.text.toList.head?.any isWordStart = true
  kind_eq : t.kind = if t.text ∈ keywords then .keyword else .identifier

/-- Keywords and identifiers are words. -/
theorem isScannedWord_of_mem_scan {source : String} {t : Token} (ht : t ∈ scan source)
    (hkind : t.kind = .keyword ∨ t.kind = .identifier) : t.IsScannedWord := by
  obtain ⟨place⟩ := nonempty_place ht
  have hread := place.isReadOff ht
  obtain ⟨lineStart, c, cs, hrest, hrule, -, htext⟩ :=
    hread.exists_rule (by rcases hkind with h | h <;> rw [h] <;> decide)
  have hstart : isWordStart c = true := by
    rcases hkind with h | h <;> rw [h] at hrule <;> exact hrule.1
  obtain ⟨hkind, hlongest⟩ := hread.isMaximal.word c cs hrest hstart
  refine ⟨⟨?_, hlongest.mem⟩, ?_, hkind⟩
  · rw [htext]
    exact List.cons_ne_nil _ _
  · rw [htext]
    exact hstart

theorem isWord_of_mem_scan {source : String} {t : Token} (ht : t ∈ scan source)
    (hkind : t.kind = .keyword ∨ t.kind = .identifier) :
    IsWord t.text.toList ∧ (t.kind = .keyword ↔ t.text ∈ keywords) := by
  have hword := isScannedWord_of_mem_scan ht hkind
  refine ⟨hword.isWord, ?_⟩
  rw [hword.kind_eq]
  split <;> simpa

/-- A symbol of one character is in the table of its kind. -/
theorem mem_of_isSymbol {source : String} {t : Token} (ht : t ∈ scan source) {symbol : String}
    (hsymbol : t.isSymbol symbol = true) {c : Char} (hc : symbol.toList = [c]) :
    t.kind = .operator ∧ c ∈ operatorChars ∨ t.kind = .punctuation ∧ c ∈ punctuationChars := by
  obtain ⟨place⟩ := nonempty_place ht
  simp only [isSymbol, Bool.and_eq_true, Bool.or_eq_true, beq_iff_eq] at hsymbol
  obtain ⟨hmark, -⟩ := (place.isReadOff ht).isMaximal.mark hsymbol.1
  rw [hsymbol.2, hc] at hmark
  generalize t.kind = kind at hmark
  cases hmark with
  | operator h => exact Or.inl ⟨rfl, h⟩
  | punctuation h => exact Or.inr ⟨rfl, h⟩

end Token

end HeaderLint
