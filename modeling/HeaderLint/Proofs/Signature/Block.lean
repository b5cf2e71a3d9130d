import Mathlib.Data.List.Infix
import HeaderLint.Proofs.Signature.Walk

/-!
# Blocks

Tokens whose braces are balanced (`ClosesBraces`) may stand in a block.  Inside a block
only the braces matter, since no candidate is at top level there.  So the walk finds
nothing in a block, and behind it the open braces are what they were before
(`Scope.walk_block`).
-/

namespace HeaderLint

/-! ## Balanced braces -/

/-- The tokens close `depth` braces more than they open, and never more than that on the
way. -/
structure ClosesBraces (depth : Nat) (ts : List Token) : Prop where
  neverBelow : ∀ us, us <+: ts →
    us.countP (·.isSymbol "\x7d") ≤ us.countP (·.isSymbol "\x7b") + depth
  closes : ts.countP (·.isSymbol "\x7d") = ts.countP (·.isSymbol "\x7b") + depth

instance (depth : Nat) (ts : List Token) : Decidable (ClosesBraces depth ts) :=
  decidable_of_iff
    ((∀ us ∈ ts.inits, us.countP (·.isSymbol "\x7d") ≤ us.countP (·.isSymbol "\x7b") + depth) ∧
      ts.countP (·.isSymbol "\x7d") = ts.countP (·.isSymbol "\x7b") + depth)
    ⟨fun h => ⟨fun us hus => h.1 us ((List.mem_inits us ts).mpr hus), h.2⟩,
      fun h => ⟨fun us hus => h.neverBelow us ((List.mem_inits us ts).mp hus), h.closes⟩⟩

theorem ClosesBraces.of_cons {depth after : Nat} {t : Token} {ts : List Token}
    (h : ClosesBraces depth (t :: ts))
    (hafter : after + (if t.isSymbol "\x7d" then 1 else 0) =
      depth + if t.isSymbol "\x7b" then 1 else 0) : ClosesBraces after ts := by
  constructor
  · intro us hus
    have hbelow := h.neverBelow (t :: us) ((List.prefix_cons_inj t).mpr hus)
    rw [List.countP_cons, List.countP_cons] at hbelow
    omega
  · have hcloses := h.closes
    rw [List.countP_cons, List.countP_cons] at hcloses
    omega

theorem ClosesBraces.depth_ne_zero {depth : Nat} {t : Token} {ts : List Token}
    (h : ClosesBraces depth (t :: ts)) (ht : t.isSymbol "\x7d" = true) : depth ≠ 0 := by
  have hbelow := h.neverBelow [t] ⟨ts, rfl⟩
  have hopen : t.isSymbol "\x7b" = false := Token.isSymbol_of_ne ht (by decide)
  simp [ht, hopen] at hbelow
  omega

/-- Braces carry structure, so they stay balanced without the tokens that carry none. -/
theorem ClosesBraces.significant {depth : Nat} {ts : List Token} (h : ClosesBraces depth ts) :
    ClosesBraces depth (Token.significant ts) := by
  have hcount : ∀ (symbol : String) (us : List Token),
      (Token.significant us).countP (·.isSymbol symbol) = us.countP (·.isSymbol symbol) := by
    intro symbol us
    rw [Token.significant, List.countP_filter]
    refine List.countP_congr ?_
    intro t _
    rw [Bool.and_eq_true]
    exact and_iff_left_of_imp Token.isSignificant_of_isSymbol
  constructor
  · rintro us ⟨vs, hus⟩
    obtain ⟨us', vs', rfl, rfl, -⟩ := List.filter_eq_append_iff.mp hus.symm
    have hbelow := h.neverBelow us' (List.prefix_append us' vs')
    rwa [← hcount "\x7d", ← hcount "\x7b"] at hbelow
  · rw [hcount, hcount]
    exact h.closes

/-! ## The walk over a block -/

namespace Scope

/-- Inside a block only the braces matter. -/
theorem braces_step_of_block {s : Scope} (t : Token) (h : isTopLevel s.braces = false) :
    (s.step t).braces =
      if t.isSymbol "\x7b" then .block :: s.braces
      else if t.isSymbol "\x7d" then s.braces.tail else s.braces := by
  rw [step, h]
  split
  · rfl
  · split
    · split <;> rfl
    · rw [Bool.and_false]
      rfl

theorem walk_eq_of_block {s s' : Scope} (hbraces : s.braces = s'.braces)
    (hblock : isTopLevel s.braces = false) (ts : List Token) : s.walk ts = s'.walk ts :=
  (Agrees.of_block hbraces hblock).walk_eq ts

/-- Nothing is found in a block, and it leaves the braces as they were. -/
theorem walk_block {depth : Nat} {braces : List Brace} {body : List Token}
    (h : ClosesBraces depth body) (ss ss' rest : List Token) :
    (⟨List.replicate depth .block ++ .block :: braces, ss⟩ : Scope).walk (body ++ rest) =
      (⟨.block :: braces, ss'⟩ : Scope).walk rest := by
  have hblock : ∀ n, isTopLevel (List.replicate n .block ++ .block :: braces) = false := by
    intro n
    simp [isTopLevel]
  induction body generalizing depth ss with
  | nil =>
    obtain rfl : 0 = depth := by simpa using h.closes
    refine walk_eq_of_block ?_ ?_ rest
    · rfl
    · exact hblock 0
  | cons t body ih =>
    have hbraces := braces_step_of_block (s := ⟨_, ss⟩) t (hblock depth)
    rw [List.cons_append, walk_of_step (candidate?_of_block (hblock depth)) rfl]
    -- The braces behind the token are again blocks only, one more or one less.
    obtain ⟨after, hafter, hdepth⟩ : ∃ after, ClosesBraces after body ∧
        (Scope.step ⟨List.replicate depth .block ++ .block :: braces, ss⟩ t).braces =
          List.replicate after .block ++ .block :: braces := by
      cases hopen : t.isSymbol "\x7b" with
      | true =>
        have hclose : t.isSymbol "\x7d" = false := Token.isSymbol_of_ne hopen (by decide)
        refine ⟨depth + 1, h.of_cons (by rw [hopen, hclose]; rfl), ?_⟩
        rw [hbraces, hopen, if_pos rfl]
        rfl
      | false =>
        cases hclose : t.isSymbol "\x7d" with
        | true =>
          obtain ⟨after, rfl⟩ := Nat.exists_eq_succ_of_ne_zero (h.depth_ne_zero hclose)
          refine ⟨after, h.of_cons (by rw [hopen, hclose]; rfl), ?_⟩
          rw [hbraces, hopen, hclose]
          rfl
        | false =>
          refine ⟨depth, h.of_cons (by rw [hopen, hclose]), ?_⟩
          rw [hbraces, hopen, hclose]
          rfl
    rw [← ih hafter []]
    refine walk_eq_of_block hdepth ?_ _
    rw [hdepth]
    exact hblock after

end Scope

end HeaderLint
