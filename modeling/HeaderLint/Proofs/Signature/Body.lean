import HeaderLint.Proofs.Signature.Block
import HeaderLint.Proofs.Signature.Cut

/-!
# Blocks are opaque

The walk sees of a block that it opens and that it closes.  What stands before the block is
found no matter what stands in it, since the opening brace cuts the walk (`Scope.walk_append`);
the block itself gives nothing (`Scope.walk_block`); and behind the closing brace the open braces
are the same and the statement, if it matters at all, starts anew.

So a block might as well be empty (`Signature.extract_block`), and two blocks in the same place
are as good as each other (`FunctionRecord.extract_body_irrel`).
-/

namespace HeaderLint

variable {pre body : List Token} {opening closing : Token}

/-- A block might as well be empty. -/
theorem Signature.extract_block (post : List Token) (hopen : opening.isSymbol "\x7b" = true)
    (hclose : closing.isSymbol "\x7d" = true) (hblock : opensLinkage pre = false)
    (hbody : ClosesBraces 0 body) :
    extract (pre ++ opening :: (body ++ closing :: post)) =
      extract (pre ++ opening :: closing :: post) := by
  have hboundary : opening.isBoundary = true := by
    rw [Token.isBoundary, hopen, Bool.true_or, Bool.true_or]
  have hopened : opening.kind.isSignificant = true := Token.isSignificant_of_isSymbol hopen
  have hclosed : closing.kind.isSignificant = true := Token.isSignificant_of_isSymbol hclose
  have hbraces := braces_step_of_opensLinkage hopen hblock
  rw [extract_eq_walk, extract_eq_walk]
  simp only [Token.significant_append, Token.significant_cons hopened,
    Token.significant_cons hclosed]
  rw [Scope.walk_append_cons _ _ hboundary (closing :: Token.significant post),
    Scope.walk_append_cons _ _ hboundary (Token.significant body ++ _), List.append_cancel_left_eq]
  -- What is left is the walk from the opening brace on, in the scope behind it.
  generalize (Scope.start.run (Token.significant pre)).step opening = s at hbraces ⊢
  obtain ⟨braces, ss⟩ := s
  obtain rfl : braces = _ := hbraces
  exact Scope.walk_block hbody.significant ss ss _

namespace FunctionRecord

open Token (scan)

/-- The records of tokens without their documentation are the signatures. -/
theorem map_toSignature_extract (tokens : List Token) :
    (extract tokens).map toSignature = Signature.extract tokens := by
  rw [extract, List.map_map]
  exact List.map_id _

/-- Two blocks in the same place give the same functions, but for their documentation, and each
of these has its name before the block or behind it. -/
theorem extract_body_irrel (pre post body body' : List Token) (opening closing : Token)
    (hopen : opening.isSymbol "\x7b" = true) (hclose : closing.isSymbol "\x7d" = true)
    (hblock : opensLinkage pre = false) (hbody : ClosesBraces 0 body)
    (hbody' : ClosesBraces 0 body') :
    (extract (pre ++ [opening] ++ body ++ [closing] ++ post)).map toSignature =
        (extract (pre ++ [opening] ++ body' ++ [closing] ++ post)).map toSignature ∧
      ∀ f ∈ extract (pre ++ [opening] ++ body ++ [closing] ++ post),
        ∃ t ∈ pre ++ post, t.kind = .identifier ∧ t.text = f.name ∧ t.position = f.position := by
  have hempty : ∀ ts, ClosesBraces 0 ts →
      (extract (pre ++ [opening] ++ ts ++ [closing] ++ post)).map toSignature =
        Signature.extract (pre ++ opening :: closing :: post) := by
    intro ts hts
    rw [map_toSignature_extract, ← Signature.extract_block post hopen hclose hblock hts]
    simp
  refine ⟨by rw [hempty body hbody, hempty body' hbody'], ?_⟩
  intro f hf
  have hsignature := List.mem_map_of_mem (f := toSignature) hf
  rw [hempty body hbody] at hsignature
  obtain ⟨t, ht, hkind, hname⟩ := Signature.exists_name_of_mem_extract hsignature
  refine ⟨t, ?_, hkind, hname⟩
  have hne : ∀ {u : Token} {symbol : String}, u.isSymbol symbol = true → t ≠ u := by
    rintro u symbol hu rfl
    have hsymbol := Token.kind_of_isSymbol hu
    rw [hkind] at hsymbol
    rcases hsymbol with h | h <;> cases h
  simpa [hne hopen, hne hclose] using ht

/-- A body with a linkage block, a declaration and a parenthesis that never closes, and a body
with a statement. -/
theorem extract_body_irrel_nested :
    (⟨.punctuation, "\x7b", ⟨1, 13⟩⟩ : Token).isSymbol "\x7b" = true ∧
      (⟨.punctuation, "\x7d", ⟨3, 1⟩⟩ : Token).isSymbol "\x7d" = true ∧
      opensLinkage (scan "int f(void)") = false ∧
      ClosesBraces 0 (scan "extern \"C\" \x7b int g(void); \x7d h(") ∧
      ClosesBraces 0 (scan "return 0;") ∧
      (extract (scan "int f(void)" ++ [⟨.punctuation, "\x7b", ⟨1, 13⟩⟩] ++
          scan "extern \"C\" \x7b int g(void); \x7d h(" ++ [⟨.punctuation, "\x7d", ⟨3, 1⟩⟩] ++
          scan "int k(int a);")).map toSignature =
        (extract (scan "int f(void)" ++ [⟨.punctuation, "\x7b", ⟨1, 13⟩⟩] ++
          scan "return 0;" ++ [⟨.punctuation, "\x7d", ⟨3, 1⟩⟩] ++
          scan "int k(int a);")).map toSignature := by
  have hblock : opensLinkage (scan "int f(void)") = false := by decide +kernel
  have hbody : ClosesBraces 0 (scan "extern \"C\" \x7b int g(void); \x7d h(") := by
    decide +kernel
  have hbody' : ClosesBraces 0 (scan "return 0;") := by decide +kernel
  exact ⟨rfl, rfl, hblock, hbody, hbody',
    (extract_body_irrel _ _ _ _ _ _ rfl rfl hblock hbody hbody').1⟩

end FunctionRecord

end HeaderLint
