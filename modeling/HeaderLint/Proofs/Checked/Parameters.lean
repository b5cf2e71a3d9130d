import HeaderLint.Proofs.Checked.Access
import HeaderLint.Proofs.Signature.Parts

/-!
# Parameters by place

A list of parameters is cut at places: a part goes from behind the last comma up to the next one,
and the part behind the last comma counts if the list goes on there.  In a part the name of a
pointer to a function stands two places behind the parenthesis, and the name of an array one place
before the bracket.

No access fails, and what is read are the parameters (`Checked.parameters_eq`), if the length of
the list is a number.  The depth of brackets is no greater than the number of tokens before.
-/

namespace HeaderLint

namespace Checked

variable (limit : Nat)

/-! ## Parts -/

/-- The parts of a list from a place on, where `start` is the place behind the last comma. -/
def cutFrom (all : List Token) (start i depth : Nat) : List Token → Except Fault (List (List Token))
  | [] => if start < all.length then do return [← range all start all.length] else return []
  | t :: ts =>
    if t.isSymbol "(" || t.isSymbol "[" then do
      cutFrom all start (i + 1) (← sum limit depth 1) ts
    else if t.isSymbol ")" || t.isSymbol "]" then cutFrom all start (i + 1) (depth - 1) ts
    else if t.isSymbol "," && depth == 0 then do
      let part ← range all start i
      return part :: (← cutFrom all (← sum limit i 1) (i + 1) depth ts)
    else cutFrom all start (i + 1) depth ts

/-- The only part is the word `void`. -/
def isVoidList (parts : List (List Token)) : Except Fault Bool :=
  if parts.length == 1 then do
    let part ← item parts 0
    if part.length == 1 then return (← item part 0).isKeyword "void" else return false
  else return false

/-! ## Names -/

/-- The parameter of a part with its name taken out. -/
def named : List Token × Token × List Token → Parameter
  | (left, name, right) => ⟨typeText (left ++ right), some name.text⟩

/-- The place of the first parenthesis with a star and an identifier behind it. -/
def pointerPlace? : List Token → Option Nat
  | a :: b :: c :: ts =>
    if a.isSymbol "(" && b.isSymbol "*" && c.kind == .identifier then some 0
    else (pointerPlace? (b :: c :: ts)).map (· + 1)
  | _ => none

/-- A part as a pointer to a function. -/
def pointer? (part : List Token) : Except Fault (Option Parameter) :=
  match pointerPlace? part with
  | none => return none
  | some place => do
    let name ← item part (← sum limit place 2)
    return some ⟨typeText (part.eraseIdx (← sum limit place 2)), some name.text⟩

/-- A part as an array. -/
def array? (part : List Token) : Except Fault (Option Parameter) :=
  match part.findIdx? fun t => t.isSymbol "[" with
  | none => return none
  | some bracket =>
    if 2 ≤ bracket then do
      let name ← item part (← less bracket 1)
      if name.kind == .identifier then
        let left ← range part 0 (← less bracket 1)
        let right ← range part bracket part.length
        return some ⟨typeText (left ++ right), some name.text⟩
      else return none
    else return none

/-- A part as a parameter. -/
def parameter (part : List Token) : Except Fault Parameter := do
  match ← pointer? limit part with
  | some p => return p
  | none =>
    match ← array? part with
    | some p => return p
    | none => return ((splitPlain? part).map named).getD ⟨typeText part, none⟩

/-- The parameters of a list. -/
def parameters (tokens : List Token) : Except Fault (List Parameter) := do
  let parts ← cutFrom limit tokens 0 0 0 tokens
  if ← isVoidList parts then return []
  else (parts.filter fun part => !part.isEmpty).mapM (parameter limit)

variable {limit}

/-! ## Cutting -/

/-- Parts without the last one, if it has no token. -/
def withoutEmptyLast (parts : List (List Token)) : List (List Token) :=
  if parts.getLast? = some [] then parts.dropLast else parts

theorem parameterParts_eq (tokens : List Token) :
    parameterParts tokens =
      withoutEmptyLast ((splitParts 0 tokens).1 :: (splitParts 0 tokens).2) :=
  rfl

theorem mem_of_mem_withoutEmptyLast {parts : List (List Token)} {part : List Token}
    (h : part ∈ withoutEmptyLast parts) : part ∈ parts := by
  rw [withoutEmptyLast] at h
  split at h
  · exact List.mem_of_mem_dropLast h
  · exact h

theorem withoutEmptyLast_cons_cons (part other : List Token) (others : List (List Token)) :
    withoutEmptyLast (part :: other :: others) = part :: withoutEmptyLast (other :: others) := by
  rw [withoutEmptyLast, withoutEmptyLast, List.getLast?_cons_cons]
  split <;> rfl

section
variable {all ts : List Token} {t : Token} {start i depth : Nat}

theorem bracketDepth_le (depth : Nat) (t : Token) : bracketDepth depth t ≤ depth + 1 := by
  rw [bracketDepth]
  split
  · exact Nat.le_refl _
  · split <;> omega

theorem cutFrom_comma (h : t.isSymbol "," = true) (hstart : start ≤ i) (hi : i < all.length)
    (hlimit : all.length ≤ limit) :
    cutFrom limit all start i 0 (t :: ts) =
      (cutFrom limit all (i + 1) (i + 1) 0 ts).map (slice all start i :: ·) := by
  have hother : ∀ symbol, "," ≠ symbol → t.isSymbol symbol = false := fun _ hne =>
    Token.isSymbol_of_ne h hne
  have hsum : sum limit i 1 = .ok (i + 1) := sum_eq (Nat.le_trans hi hlimit)
  rw [cutFrom, hother "(" (by decide), hother "[" (by decide), hother ")" (by decide),
    hother "]" (by decide), h, range_eq hstart (Nat.le_of_lt hi), hsum]
  rfl

theorem cutFrom_cons (h : (t.isSymbol "," && depth == 0) = false) (hdepth : depth < limit) :
    cutFrom limit all start i depth (t :: ts) =
      cutFrom limit all start (i + 1) (bracketDepth depth t) ts := by
  rw [cutFrom, h, sum_eq hdepth, bracketDepth]
  split
  · rfl
  · split <;> rfl

/-- From a place on the list is cut as it is without places.  The first part goes on with what
stands behind the last comma. -/
theorem cutFrom_drop (n : Nat) (hn : i + n = all.length) (hstart : start ≤ i) (hdepth : depth ≤ i)
    (hlimit : all.length ≤ limit) :
    cutFrom limit all start i depth (all.drop i) =
      .ok (withoutEmptyLast ((slice all start i ++ (splitParts depth (all.drop i)).1) ::
        (splitParts depth (all.drop i)).2)) := by
  induction n generalizing start i depth with
  | zero =>
    obtain rfl : i = all.length := hn
    rw [List.drop_length, cutFrom, splitParts, List.append_nil]
    rcases Nat.lt_or_eq_of_le hstart with hlt | rfl
    · have hne : slice all start all.length ≠ [] := by
        rw [slice, List.take_length, Ne, List.drop_eq_nil_iff]
        exact Nat.not_le_of_lt hlt
      rw [if_pos hlt, range_eq hstart (Nat.le_refl _), withoutEmptyLast, List.getLast?_singleton,
        if_neg (mt Option.some_inj.mp hne)]
      rfl
    · rw [if_neg (Nat.lt_irrefl _), slice_self]
      rfl
  | succ n ih =>
    have hi : i < all.length := by omega
    rw [List.drop_eq_getElem_cons hi, splitParts]
    cases hcomma : all[i].isSymbol "," && depth == 0 with
    | true =>
      obtain ⟨hsymbol, hzero⟩ := Bool.and_eq_true_iff.mp hcomma
      obtain rfl : depth = 0 := beq_iff_eq.mp hzero
      rw [cutFrom_comma hsymbol hstart hi hlimit, ih (by omega) (Nat.le_refl _) (Nat.zero_le _),
        slice_self, List.nil_append]
      simp only [Except.map, if_true, List.append_nil, withoutEmptyLast_cons_cons]
    | false =>
      have hbracket := bracketDepth_le depth all[i]
      rw [cutFrom_cons hcomma (by omega), ih (by omega) (by omega) (by omega),
        slice_succ hstart hi]
      simp only [List.append_assoc, List.singleton_append, Bool.false_eq_true, if_false]

theorem cutFrom_eq (hlimit : all.length ≤ limit) :
    cutFrom limit all 0 0 0 all = .ok (parameterParts all) :=
  cutFrom_drop all.length (Nat.zero_add _) (Nat.le_refl 0) (Nat.le_refl 0) hlimit

end

theorem isVoidList_eq (parts : List (List Token)) :
    isVoidList parts = .ok (HeaderLint.isVoidList parts) := by
  match parts with
  | [] | [[]] | [[_]] => rfl
  | [_ :: _ :: _] => simp [isVoidList, HeaderLint.isVoidList, item]
  | _ :: _ :: _ => simp [isVoidList, HeaderLint.isVoidList]

/-! ## Reading a part -/

theorem pointerPlace?_eq_some {part : List Token} {place : Nat}
    (h : pointerPlace? part = some place) :
    ∃ name, part[place + 2]? = some name ∧
      splitFunctionPointer? part = some (part.take (place + 2), name, part.drop (place + 3)) := by
  fun_induction pointerPlace? part generalizing place with
  | case1 a b c ts hnames =>
    cases h
    refine ⟨c, rfl, ?_⟩
    rw [splitFunctionPointer?, if_pos hnames]
    rfl
  | case2 a b c ts hnames ih =>
    obtain ⟨inner, hinner, rfl⟩ := Option.map_eq_some_iff.mp h
    obtain ⟨name, hname, hsplit⟩ := ih hinner
    refine ⟨name, hname, ?_⟩
    rw [splitFunctionPointer?, if_neg hnames, hsplit]
    rfl
  | case3 => cases h

theorem pointerPlace?_eq_none {part : List Token} (h : pointerPlace? part = none) :
    splitFunctionPointer? part = none := by
  fun_induction pointerPlace? part with
  | case1 => cases h
  | case2 a b c ts hnames ih =>
    rw [splitFunctionPointer?, if_neg hnames, ih (Option.map_eq_none_iff.mp h)]
    rfl
  | case3 ts hshort =>
    rw [splitFunctionPointer?]
    exact hshort

theorem pointer?_eq {part : List Token} (hlimit : part.length ≤ limit) :
    pointer? limit part = .ok ((splitFunctionPointer? part).map named) := by
  rw [pointer?]
  cases hplace : pointerPlace? part with
  | none =>
    rw [pointerPlace?_eq_none hplace]
    rfl
  | some place =>
    obtain ⟨name, hname, hsplit⟩ := pointerPlace?_eq_some hplace
    obtain ⟨hlt, rfl⟩ := List.getElem?_eq_some_iff.mp hname
    have hsum : sum limit place 2 = .ok (place + 2) := sum_eq (by omega)
    simp only [hsum, ok_bind, item_eq hlt, List.eraseIdx_eq_take_drop_succ, hsplit]
    rfl

/-- With two tokens before the first bracket, the second of them may name an array. -/
theorem splitArray?_of_findIdx? {part : List Token} {bracket : Nat}
    (hfind : part.findIdx? (fun t => t.isSymbol "[") = some bracket)
    (hplace : bracket - 1 < part.length) :
    splitArray? part =
      if 2 ≤ bracket ∧ part[bracket - 1].kind = .identifier then
        some (part.take (bracket - 1), part[bracket - 1], part.drop bracket)
      else none := by
  obtain ⟨hlt, hbracket⟩ := List.findIdx?_eq_some_iff_findIdx_eq.mp hfind
  have hleft : part.takeWhile (fun t => !t.isSymbol "[") = part.take bracket := by
    simp only [List.takeWhile_eq_take_findIdx_not, Bool.not_not, hbracket]
  have hright : part.dropWhile (fun t => !t.isSymbol "[") = part.drop bracket := by
    simp only [List.dropWhile_eq_drop_findIdx_not, Bool.not_not, hbracket]
  have hlength : (part.take bracket).length = bracket := by
    rw [List.length_take, Nat.min_eq_left (Nat.le_of_lt hlt)]
  have hnonempty : (part.drop bracket).isEmpty = false := by
    rw [List.isEmpty_eq_false_iff, Ne, List.drop_eq_nil_iff]
    exact Nat.not_le_of_lt hlt
  rw [splitArray?, hleft, hright, hlength, hnonempty]
  by_cases htwo : 2 ≤ bracket
  · have hlast : (part.take bracket).getLast? = some part[bracket - 1] := by
      rw [List.getLast?_eq_getElem?, hlength, List.getElem?_take_of_lt (by omega),
        List.getElem?_eq_getElem hplace]
    simp only [hlast, List.dropLast_take hlt, htwo, true_and, decide_true, Bool.not_false,
      Bool.true_and, beq_iff_eq]
  · simp only [htwo, false_and, if_false, decide_false, Bool.and_false, Bool.false_and,
      Bool.false_eq_true]
    split <;> rfl

theorem array?_eq (part : List Token) : array? part = .ok ((splitArray? part).map named) := by
  rw [array?]
  cases hfind : part.findIdx? fun t => t.isSymbol "[" with
  | none =>
    rw [splitArray?_eq_none (List.findIdx?_eq_none_iff.mp hfind)]
    rfl
  | some bracket =>
    have hlt := (List.findIdx?_eq_some_iff_findIdx_eq.mp hfind).1
    have hplace : bracket - 1 < part.length := by omega
    have hleft : range part 0 (bracket - 1) = .ok (part.take (bracket - 1)) :=
      range_eq (Nat.zero_le _) (Nat.le_of_lt hplace)
    have hright : range part bracket part.length = .ok (part.drop bracket) := by
      rw [range_eq (Nat.le_of_lt hlt) (Nat.le_refl _), slice, List.take_length]
    rw [splitArray?_of_findIdx? hfind hplace]
    by_cases htwo : 2 ≤ bracket
    · have hless : less bracket 1 = .ok (bracket - 1) := less_eq (by omega)
      by_cases hkind : part[bracket - 1].kind = .identifier
      · simp only [htwo, hless, item_eq hplace, hkind, hleft, hright, ok_bind, if_true, and_self,
          beq_self_eq_true]
        rfl
      · simp only [htwo, hless, item_eq hplace, hkind, ok_bind, if_true, and_false, if_false,
          beq_eq_false_iff_ne.mpr hkind, Bool.false_eq_true]
        rfl
    · simp only [htwo, if_false, false_and]
      rfl

theorem sublist_of_mem_splitParts {depth : Nat} {ts part : List Token}
    (h : part ∈ (splitParts depth ts).1 :: (splitParts depth ts).2) : part.Sublist ts := by
  induction ts generalizing depth part with
  | nil =>
    rw [List.mem_singleton.mp h]
    exact .slnil
  | cons t ts ih =>
    rw [splitParts] at h
    split at h
    · rcases List.mem_cons.mp h with rfl | h
      · exact List.nil_sublist _
      · exact (ih h).cons t
    · rcases List.mem_cons.mp h with rfl | h
      · exact (ih List.mem_cons_self).cons_cons t
      · exact (ih (List.mem_cons_of_mem _ h)).cons t

theorem sublist_of_mem_parameterParts {ts part : List Token} (h : part ∈ parameterParts ts) :
    part.Sublist ts := by
  rw [parameterParts_eq] at h
  exact sublist_of_mem_splitParts (mem_of_mem_withoutEmptyLast h)

theorem parameter_eq {part : List Token} (hlimit : part.length ≤ limit) :
    parameter limit part = .ok (HeaderLint.parameter part) := by
  rw [parameter, pointer?_eq hlimit, array?_eq, HeaderLint.parameter]
  cases splitFunctionPointer? part with
  | some split => rfl
  | none =>
    cases splitArray? part with
    | some split => rfl
    | none =>
      cases splitPlain? part with
      | some split => rfl
      | none => rfl

/-- No access fails in a list of parameters, and its parameters are read. -/
theorem parameters_eq {tokens : List Token} (hlimit : tokens.length ≤ limit) :
    parameters limit tokens = .ok (HeaderLint.parameters tokens) := by
  have hparts : ∀ part ∈ (parameterParts tokens).filter fun part => !part.isEmpty,
      parameter limit part = .ok (HeaderLint.parameter part) := by
    intro part hpart
    have hsublist := sublist_of_mem_parameterParts (List.mem_of_mem_filter hpart)
    exact parameter_eq (Nat.le_trans hsublist.length_le hlimit)
  rw [parameters, cutFrom_eq hlimit, ok_bind, isVoidList_eq, ok_bind, HeaderLint.parameters]
  split
  · rfl
  · exact mapM_eq_ok hparts

end Checked

end HeaderLint
