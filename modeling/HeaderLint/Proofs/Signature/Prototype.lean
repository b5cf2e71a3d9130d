import HeaderLint.Proofs.Signature.Nameless

/-!
# Functions with and without the names of their parameters

A `NamedFunction` is a function whose parameters all have names (`NamedParameter`), with a mark at
each name that a prototype of it leaves out.  It stands for two lists of tokens, with all names
and bare of those that are marked.

A list of parameters is cut into its parts at the commas between them, and each part is read on
its own (`parameters_intercalate`).  So both lists of parameters are read place by place
(`NamedFunction.parameters_signature`), but for a parameter of type `void` that is alone in the
list, and both have the same types just when no other name is left where one is left out
(`NamedFunction.keeps_iff`).
-/

namespace HeaderLint

/-! ## Lists of parameters -/

section
variable {comma : Token} {parts : List (List Token)}

theorem encloses_intercalate (separates : comma.isSymbol "," = true)
    (hparts : ∀ part ∈ parts, Encloses 0 part) : Encloses 0 ([comma].intercalate parts) := by
  by_cases hne : parts = []
  · rw [hne]
    exact encloses_nil.mpr rfl
  · exact (separated_intercalate separates hne).encloses hparts

theorem parameters_intercalate (separates : comma.isSymbol "," = true)
    (hparts : ∀ part ∈ parts, IsPart part) :
    parameters ([comma].intercalate parts) =
      if isVoidList parts then [] else parts.map parameter := by
  by_cases hne : parts = []
  · rw [hne]
    rfl
  · exact (separated_intercalate separates hne).parameters_eq hparts

end

/-! ## Parameters with names -/

/-- A parameter with a name. -/
structure NamedParameter where
  /-- What stands before the name. -/
  left : List Token
  name : Token
  /-- What stands behind the name. -/
  right : List Token
  isDeclarator : Declarator left right
  isName : name.kind = .identifier

namespace NamedParameter

variable (p : NamedParameter)

/-- The tokens of the parameter. -/
def tokens : List Token := p.left ++ p.name :: p.right

/-- The tokens of the parameter without its name. -/
def bareTokens : List Token := p.left ++ p.right

/-- What stands behind the name shows no name, and no array is one of a bare tag. -/
structure IsRegular : Prop where
  notPointer : ¬NamesPointer p.right
  notArray : ¬NamesArray p.right
  notTagged : p.right ≠ [] → ¬EndsWithTag p.left

instance : Decidable p.IsRegular :=
  decidable_of_iff
    (¬NamesPointer p.right ∧ ¬NamesArray p.right ∧ (p.right ≠ [] → ¬EndsWithTag p.left))
    ⟨fun h => ⟨h.1, h.2.1, h.2.2⟩, fun h => ⟨h.notPointer, h.notArray, h.notTagged⟩⟩

theorem isPart_tokens : IsPart p.tokens :=
  p.isDeclarator.isPart [p.name]
    (List.forall_mem_singleton.mpr (isFlat_of_isIdentifier p.isName))

theorem isPart_bareTokens : IsPart p.bareTokens :=
  p.isDeclarator.isPart [] (by simp)

/-- A type and a name are two tokens at least. -/
theorem tokens_ne_singleton (t : Token) : p.tokens ≠ [t] := by
  intro h
  have hlength := congrArg List.length h
  have hleft := List.length_pos_iff.mpr p.isDeclarator.left_ne_nil
  rw [tokens, List.length_append, List.length_cons, List.length_singleton] at hlength
  omega

variable {p}

theorem parameter_tokens (h : p.IsRegular) :
    parameter p.tokens = ⟨typeText p.bareTokens, some p.name.text⟩ :=
  p.isDeclarator.parameter_named p.isName h.notPointer

/-- Without its name a parameter has the same type, if no name is left before the place of the
name. -/
theorem parameter_bareTokens (h : p.IsRegular) (hnameless : EndsNameless p.left) :
    parameter p.bareTokens = ⟨typeText p.bareTokens, none⟩ :=
  p.isDeclarator.parameter_bare h.notPointer h.notArray h.notTagged hnameless

/-- Without its name a parameter is read with no name just when none is left before the place of
the name. -/
theorem name_parameter_bareTokens (h : p.IsRegular) :
    (parameter p.bareTokens).name = none ↔ EndsNameless p.left := by
  constructor
  · intro hnone
    refine (endsNameless_or_name p.isDeclarator.left_ne_nil).resolve_right ?_
    rintro ⟨words, name, hleft, hne, isName, htag⟩
    rw [bareTokens, p.isDeclarator.parameter_misread h.notPointer hleft hne isName htag] at hnone
    cases hnone
  · intro hnameless
    rw [parameter_bareTokens h hnameless]

end NamedParameter

/-! ## Functions -/

/-- A function whose parameters have names, written twice: with all names, and bare of those that
are left out. -/
structure NamedFunction where
  /-- What stands before the name of the function. -/
  head : List Token
  name : Token
  /-- The parenthesis before the parameters. -/
  opening : Token
  /-- The parameters, each with a mark if its name is left out. -/
  parameters : List (NamedParameter × Bool)
  /-- The comma between two parameters. -/
  comma : Token
  /-- The parenthesis behind the parameters. -/
  closing : Token
  /-- What follows the parameters with all names, and bare of some. -/
  ending : Bool → List Token
  isDefinition : Bool → Bool
  starts : StartsSignature name head
  opens : opening.isSymbol "(" = true
  separates : comma.isSymbol "," = true
  closes : closing.isSymbol ")" = true
  ends : ∀ bare, Ending (isDefinition bare) (ending bare)

namespace NamedFunction

/-- The tokens of a parameter, with or without a name that is left out. -/
def partTokens (bare : Bool) (x : NamedParameter × Bool) : List Token :=
  if bare && x.2 then x.1.bareTokens else x.1.tokens

variable (d : NamedFunction)

/-- The parts of the list of parameters. -/
def parts (bare : Bool) : List (List Token) := d.parameters.map (partTokens bare)

/-- The tokens between the parentheses. -/
def inside (bare : Bool) : List Token := [d.comma].intercalate (d.parts bare)

/-- The tokens of the function, with all names or bare of those that are left out. -/
def tokens (bare : Bool) : List Token :=
  d.head ++ d.name :: d.opening :: (d.inside bare ++ d.closing :: d.ending bare)

/-- The signature of the function, with all names or bare of those that are left out. -/
def signature (bare : Bool) : Signature :=
  signatureOf d.name d.head (d.inside bare) (d.isDefinition bare)

/-- The only parameter is left without its name as the word `void`. -/
def IsVoid : Prop :=
  ∃ p t, d.parameters = [(p, true)] ∧ p.bareTokens = [t] ∧ t.isKeyword "void" = true

/-- Where a name is left out no other is left, and the parameters do not read as none. -/
structure IsNameless : Prop where
  endsNameless : ∀ p, (p, true) ∈ d.parameters → EndsNameless p.left
  notVoid : ¬d.IsVoid

/-! ## The list of parameters -/

theorem isPart_of_mem_parts {bare : Bool} : ∀ part ∈ d.parts bare, IsPart part := by
  intro part hpart
  obtain ⟨x, -, rfl⟩ := List.mem_map.mp hpart
  rw [partTokens]
  split
  · exact x.1.isPart_bareTokens
  · exact x.1.isPart_tokens

theorem encloses_inside (bare : Bool) : Encloses 0 (d.inside bare) :=
  encloses_intercalate d.separates fun part hpart => (d.isPart_of_mem_parts part hpart).encloses

/-- The list reads as none just when `void` is left alone in it. -/
theorem isVoidList_parts_iff {bare : Bool} :
    isVoidList (d.parts bare) = true ↔ bare = true ∧ d.IsVoid := by
  constructor
  · intro hvoid
    obtain ⟨t, hlist, ht⟩ := exists_of_isVoidList hvoid
    obtain ⟨⟨p, leftOut⟩, hparameters, hpart⟩ := List.map_eq_singleton_iff.mp hlist
    rw [partTokens] at hpart
    split at hpart
    · next h =>
      obtain ⟨rfl, rfl⟩ := Bool.and_eq_true_iff.mp h
      exact ⟨rfl, p, t, hparameters, hpart, ht⟩
    · exact absurd hpart (p.tokens_ne_singleton t)
  · rintro ⟨rfl, p, t, hparameters, hpart, ht⟩
    rw [parts, hparameters]
    show isVoidList [p.bareTokens] = true
    rw [hpart]
    exact ht

/-- The parameters are read one by one. -/
theorem parameters_signature {bare : Bool} (hvoid : ¬(bare = true ∧ d.IsVoid)) :
    (d.signature bare).parameters = d.parameters.map fun x => parameter (partTokens bare x) := by
  show HeaderLint.parameters (d.inside bare) = _
  rw [inside, parameters_intercalate d.separates d.isPart_of_mem_parts,
    if_neg fun h => hvoid (d.isVoidList_parts_iff.mp h), parts, List.map_map]
  rfl

theorem parameters_signature_of_isVoid (hvoid : d.IsVoid) : (d.signature true).parameters = [] := by
  show HeaderLint.parameters (d.inside true) = _
  rw [inside, parameters_intercalate d.separates d.isPart_of_mem_parts,
    if_pos (d.isVoidList_parts_iff.mpr ⟨rfl, hvoid⟩)]

/-! ## The walk -/

/-- Functions in a row are found one by one. -/
theorem walk_flatMap_tokens (ds : List NamedFunction) (bare : Bool) :
    Scope.start.walk (ds.flatMap (tokens · bare)) = ds.map (signature · bare) := by
  rw [List.map_eq_flatMap]
  refine Scope.walk_flatMap (fun d rest => ?_) ds
  rw [tokens, List.append_assoc, List.cons_append, List.cons_append, List.append_assoc]
  exact Scope.walk_signature rfl d.starts d.opens (d.encloses_inside bare) d.closes (d.ends bare)
    rest

/-! ## What is kept -/

/-- Without the names that are left out the types are the same, place by place, and there is no
name where one is left out. -/
structure Keeps (ps qs : List Parameter) : Prop where
  types_eq : qs.map Parameter.type = ps.map Parameter.type
  name_eq_none : ∀ (i : Nat) p q, d.parameters[i]? = some (p, true) → qs[i]? = some q →
    q.name = none

/-- What is read without the names is what is read with them just when no other name is left. -/
theorem keeps_iff (hregular : ∀ p, (p, true) ∈ d.parameters → p.IsRegular) :
    d.Keeps (d.signature false).parameters (d.signature true).parameters ↔ d.IsNameless := by
  rw [d.parameters_signature fun h => Bool.false_ne_true h.1]
  by_cases hvoid : d.IsVoid
  · refine iff_of_false ?_ fun h => h.notVoid hvoid
    rintro ⟨htypes, -⟩
    rw [d.parameters_signature_of_isVoid hvoid] at htypes
    obtain ⟨p, t, hparameters, -⟩ := hvoid
    rw [hparameters] at htypes
    cases htypes
  rw [d.parameters_signature fun h => hvoid h.2]
  constructor
  · rintro ⟨-, hnames⟩
    refine ⟨fun p hp => ?_, hvoid⟩
    obtain ⟨i, hi⟩ := List.getElem?_of_mem hp
    refine (NamedParameter.name_parameter_bareTokens (hregular p hp)).mp (hnames i p _ hi ?_)
    rw [List.getElem?_map, hi]
    rfl
  · intro hnameless
    have hread : ∀ p, (p, true) ∈ d.parameters →
        parameter p.bareTokens = ⟨typeText p.bareTokens, none⟩ := fun p hp =>
      NamedParameter.parameter_bareTokens (hregular p hp) (hnameless.endsNameless p hp)
    refine ⟨?_, ?_⟩
    · rw [List.map_map, List.map_map]
      refine List.map_congr_left ?_
      rintro ⟨p, leftOut⟩ hp
      cases leftOut with
      | false => rfl
      | true =>
        show (parameter p.bareTokens).type = (parameter p.tokens).type
        rw [hread p hp, NamedParameter.parameter_tokens (hregular p hp)]
    · intro i p q hi hq
      rw [List.getElem?_map, hi] at hq
      cases hq
      show (parameter p.bareTokens).name = none
      rw [hread p (List.mem_of_getElem? hi)]

end NamedFunction

end HeaderLint
