import HeaderLint.Proofs.Signature.Parts

/-!
# Every function of the grammar is found

`FunctionRecord.extract_items` says that functions of the grammar in a row are extracted
one by one, each with all that its tokens say about it.

A function starts where no statement has started.  Its head only extends the statement
(`Scope.walk_flat`), and at the parenthesis the candidate is read as its signature
(`Scope.walk_signature`).  A semicolon ends the statement.  A body is a block, in which
nothing is found (`Scope.walk_block`), and the brace that closes it ends the statement
too.  So the next function starts as the first did (`FunctionItem.walk_tokens`).
-/

namespace HeaderLint

/-! ## Heads -/

theorem headFits_of_forall_isTypeToken {ts : List Token} (h : ∀ t ∈ ts, isTypeToken t = true)
    (previous : Option Token) : HeadFits previous ts :=
  fun _ t hi => Or.inl (h t (List.mem_of_getElem? hi))

theorem HeadFits.isTypeToken_or_stringLiteral {previous : Option Token} {head : List Token}
    (h : HeadFits previous head) :
    ∀ t ∈ head, isTypeToken t = true ∨ t.kind = .stringLiteral := by
  intro t ht
  obtain ⟨i, hi⟩ := List.getElem?_of_mem ht
  exact (h i t hi).imp_right And.left

theorem isStorageWord_of_isExtern {t : Token} (h : t.isKeyword "extern" = true) :
    isStorageWord t = true := by
  obtain ⟨hkind, htext⟩ := Bool.and_eq_true_iff.mp h
  rw [isStorageWord, hkind, beq_iff_eq.mp htext]
  simp [storageWords]

theorem isStatementWord_of_isStorageWord {t : Token} (h : isStorageWord t = true) :
    isStatementWord t = false := by
  have htext : t.text ∈ storageWords :=
    List.contains_iff_mem.mp (Bool.and_eq_true_iff.mp h).2
  have hdisjoint : ∀ word ∈ storageWords, statementWords.contains word = false := by decide
  rw [isStatementWord, hdisjoint _ htext, Bool.and_false]

namespace StorageWords

variable {words : List Token}

theorem headFits_append (h : StorageWords words) {ts : List Token}
    (hts : ∀ previous, HeadFits previous ts) :
    ∀ previous, HeadFits previous (words ++ ts) := by
  induction h with
  | nil => exact hts
  | word h _ ih =>
    intro previous
    exact headFits_cons.mpr ⟨Or.inl (isTypeToken_of_isStorageWord h), ih _⟩
  | linkage isExtern isString _ ih =>
    intro previous
    have hword := isTypeToken_of_isStorageWord (isStorageWord_of_isExtern isExtern)
    exact headFits_cons.mpr
      ⟨Or.inl hword, headFits_cons.mpr ⟨Or.inr ⟨isString, isExtern⟩, ih _⟩⟩

/-- Storage words are no part of the return type. -/
theorem keptTokens_eq_nil (h : StorageWords words) : keptTokens words = [] := by
  induction h with
  | nil => rfl
  | word h _ ih => rw [keptTokens_cons, h, ih, Bool.not_true, Bool.and_false]; rfl
  | linkage isExtern isString _ ih =>
    rw [keptTokens_cons, isStorageWord_of_isExtern isExtern, keptTokens_cons,
      isTypeToken_of_stringLiteral isString, ih, Bool.not_true, Bool.and_false]
    rfl

theorem isStatementWord_head? (h : StorageWords words) :
    ∀ t ∈ words.head?, isStatementWord t = false := by
  cases h with
  | nil => simp
  | word h _ => simpa using isStatementWord_of_isStorageWord h
  | linkage isExtern _ _ =>
    simpa using isStatementWord_of_isStorageWord (isStorageWord_of_isExtern isExtern)

end StorageWords

section
variable {type : List Token}

theorem IsType.isTypeToken (h : IsType isStar type) : ∀ t ∈ type, isTypeToken t = true :=
  h.isTypeToken_of_mem fun _ => isTypeToken_of_isStar

theorem IsType.isStorageWord (h : IsType isStar type) : ∀ t ∈ type, isStorageWord t = false := by
  refine h.forall_mem ?_ ?_
  · intro t ht
    rw [isTypeWord, Bool.and_eq_true, Bool.and_eq_true, Bool.not_eq_true'] at ht
    exact ht.1.2
  · intro t ht
    rw [HeaderLint.isStorageWord, beq_iff_eq.mp (Bool.and_eq_true_iff.mp ht).1]
    rfl

theorem IsType.isStatementWord (h : IsType isStar type) :
    ∀ t ∈ type, isStatementWord t = false := by
  refine h.forall_mem ?_ ?_
  · intro t ht
    rw [isTypeWord, Bool.and_eq_true, Bool.not_eq_true'] at ht
    exact ht.2
  · intro t ht
    rw [HeaderLint.isStatementWord, beq_iff_eq.mp (Bool.and_eq_true_iff.mp ht).1]
    rfl

/-- A return type is kept as it is. -/
theorem IsType.keptTokens_eq (h : IsType isStar type) : keptTokens type = type := by
  refine List.filter_eq_self.mpr ?_
  intro t ht
  rw [h.isTypeToken t ht, h.isStorageWord t ht]
  rfl

end

/-! ## Candidates -/

/-- Without storage words there is no `static`. -/
theorem any_static_eq_false {ts : List Token} (h : ∀ t ∈ ts, isStorageWord t = false) :
    ts.any (Token.isKeyword · "static") = false := by
  rw [List.any_eq_false]
  intro t ht hkeyword
  have hstorage : isStorageWord t = true := by
    obtain ⟨hkind, htext⟩ := Bool.and_eq_true_iff.mp hkeyword
    rw [isStorageWord, hkind, beq_iff_eq.mp htext]
    simp [storageWords]
  rw [h t ht] at hstorage
  cases hstorage

namespace FunctionItem

variable (item : FunctionItem)

/-- What stands before the name. -/
def head : List Token := item.storage ++ item.type

theorem keptTokens_head : keptTokens item.head = item.type := by
  rw [keptTokens, head, List.filter_append]
  show keptTokens item.storage ++ keptTokens item.type = _
  rw [item.isStorage.keptTokens_eq_nil, item.isType.keptTokens_eq, List.nil_append]

theorem headFits : HeadFits none item.head :=
  item.isStorage.headFits_append (headFits_of_forall_isTypeToken item.isType.isTypeToken) none

theorem startsSignature : StartsSignature item.name item.head := by
  refine ⟨item.isName, ?_, item.headFits, ?_⟩
  · rw [← Bool.not_eq_true, Option.any_eq_true]
    rintro ⟨t, ht, hstatement⟩
    rw [head, List.head?_append] at ht
    cases hstorage : item.storage.head? with
    | some u =>
      rw [hstorage, Option.some_or] at ht
      cases ht
      rw [item.isStorage.isStatementWord_head? t hstorage] at hstatement
      cases hstatement
    | none =>
      rw [hstorage, Option.none_or] at ht
      rw [item.isType.isStatementWord t (List.mem_of_head? ht)] at hstatement
      cases hstatement
  · rw [keptTokens_head]
    exact item.isType.ne_nil

/-- What is said about a function that is read is what its tokens say. -/
theorem signatureOf_eq :
    signatureOf item.name item.head item.inside item.isDefinition = item.signature := by
  have hstatic := any_static_eq_false item.isType.isStorageWord
  rw [signatureOf, keptTokens_head, item.spells.parameters_eq, head, List.any_append, hstatic,
    Bool.or_false]
  rfl

end FunctionItem

theorem Ending.exists_cons {isDefinition : Bool} {ending : List Token}
    (h : Ending isDefinition ending) :
    ∃ t ts, ending = t :: ts ∧ terminatorKind? t = some isDefinition := by
  cases h with
  | body opens _ _ =>
    exact ⟨_, _, rfl, terminatorKind?_eq_some_iff.mpr ⟨Or.inl opens, opens⟩⟩
  | semicolon h =>
    exact ⟨_, _, rfl,
      terminatorKind?_eq_some_iff.mpr ⟨Or.inr h, Token.isSymbol_of_ne h (by decide)⟩⟩

/-! ## The walk over a function -/

namespace Scope

/-- Flat tokens extend the statement. -/
theorem walk_flat {s : Scope} {ts : List Token} (h : ∀ t ∈ ts, IsFlat t) (rest : List Token) :
    s.walk (ts ++ rest) = (⟨s.braces, ts.reverse ++ s.statement⟩ : Scope).walk rest := by
  induction ts generalizing s with
  | nil => rfl
  | cons t ts ih =>
    obtain ⟨ht, hts⟩ := List.forall_mem_cons.mp h
    rw [List.cons_append, walk_of_step (candidate?_of_ne ht.isPlain.1) (step_plain ht.isPlain.2.2),
      ih hts, List.reverse_cons, List.append_assoc]
    rfl

/-- A semicolon at top level ends the statement. -/
theorem walk_semicolon {braces : List Brace} (htop : isTopLevel braces = true) {t : Token}
    (h : t.isSymbol ";" = true) (statement rest : List Token) :
    (⟨braces, statement⟩ : Scope).walk (t :: rest) = (⟨braces, []⟩ : Scope).walk rest := by
  refine walk_of_step (candidate?_of_ne (Token.isSymbol_of_ne h (by decide))) ?_
  have hopen : t.isSymbol "\x7b" = false := Token.isSymbol_of_ne h (by decide)
  have hclose : t.isSymbol "\x7d" = false := Token.isSymbol_of_ne h (by decide)
  simp [step, hopen, hclose, h, htop]

/-- What ends a function leaves nothing open, and the next statement has not started. -/
theorem walk_ending {isDefinition : Bool} {ending : List Token} (h : Ending isDefinition ending)
    {braces : List Brace} (htop : isTopLevel braces = true) {statement : List Token}
    (hlinkage : endsWithLinkage statement = false) (rest : List Token) :
    (⟨braces, statement⟩ : Scope).walk (ending ++ rest) = (⟨braces, []⟩ : Scope).walk rest := by
  cases h with
  | @body opening closing body opens balanced closes =>
    have hopening : (⟨braces, statement⟩ : Scope).step opening =
        ⟨.block :: braces, opening :: statement⟩ := by
      rw [step, opens, hlinkage, Bool.and_false]
      rfl
    have hclosing : (⟨.block :: braces, []⟩ : Scope).step closing = ⟨braces, []⟩ := by
      have hopen : closing.isSymbol "\x7b" = false := Token.isSymbol_of_ne closes (by decide)
      rw [step, hopen, closes]
      simp [htop]
    rw [List.cons_append, List.append_assoc,
      walk_of_step (candidate?_of_ne (Token.isSymbol_of_ne opens (by decide))) hopening]
    exact (walk_block balanced _ [] _).trans
      (walk_of_step (candidate?_of_ne (Token.isSymbol_of_ne closes (by decide))) hclosing)
  | semicolon h => exact walk_semicolon htop h statement rest

/-- From the start of a statement the walk finds a signature, and it comes to the start of the
next statement. -/
theorem walk_signature {braces : List Brace} (htop : isTopLevel braces = true)
    {name opening closing : Token} {head inside ending : List Token} {isDefinition : Bool}
    (starts : StartsSignature name head) (opens : opening.isSymbol "(" = true)
    (encloses : Encloses 0 inside) (closes : closing.isSymbol ")" = true)
    (ends : Ending isDefinition ending) (rest : List Token) :
    (⟨braces, []⟩ : Scope).walk
        (head ++ name :: opening :: (inside ++ closing :: (ending ++ rest))) =
      signatureOf name head inside isDefinition :: (⟨braces, []⟩ : Scope).walk rest := by
  have hflat : ∀ t ∈ head ++ [name], IsFlat t := by
    refine List.forall_mem_append.mpr
      ⟨?_, List.forall_mem_singleton.mpr (isFlat_of_isIdentifier starts.isIdentifier)⟩
    intro t ht
    rcases starts.headFits.isTypeToken_or_stringLiteral t ht with htype | hstring
    · exact isFlat_of_isTypeToken htype
    · exact isFlat_of_kind hstring (by decide)
  have hcandidate : (⟨braces, name :: head.reverse⟩ : Scope).candidate? opening
      (inside ++ closing :: (ending ++ rest)) =
        some ⟨signatureOf name head inside isDefinition, inside⟩ := by
    rw [candidate?, opens, htop]
    refine (Candidate.read?_eq_some_iff_of_closesAfter ⟨encloses, _, _, rfl, closes⟩).mpr
      ⟨starts, isDefinition, ?_, rfl⟩
    obtain ⟨t, ts, hending, hkind⟩ := ends.exists_cons
    rw [List.getElem?_append_right (Nat.le_add_right _ 1), Nat.add_sub_cancel_left, hending]
    exact hkind
  have hdrop : (inside ++ closing :: (ending ++ rest)).drop (inside.length + 1) =
      ending ++ rest := by simp
  rw [List.append_cons, walk_flat hflat, List.reverse_append, List.append_nil]
  rw [show [name].reverse ++ head.reverse = name :: head.reverse from rfl,
    walk_candidate hcandidate, hdrop]
  exact congrArg _ (walk_ending ends htop (endsWithLinkage_of_isSymbol opens) rest)

/-- Pieces that start and end a statement each give what they give alone. -/
theorem walk_flatMap {α : Type} {tokens : α → List Token} {found : α → List Signature}
    (h : ∀ a rest, start.walk (tokens a ++ rest) = found a ++ start.walk rest) (as : List α) :
    start.walk (as.flatMap tokens) = as.flatMap found := by
  induction as with
  | nil => rfl
  | cons a as ih => rw [List.flatMap_cons, List.flatMap_cons, h, ih]

end Scope

/-! ## Functions in a row -/

namespace FunctionItem

variable (item : FunctionItem)

/-- From the start of a statement the walk finds a function, and it comes to the start of
the next statement. -/
theorem walk_tokens {braces : List Brace} (htop : isTopLevel braces = true) (rest : List Token) :
    (⟨braces, []⟩ : Scope).walk (item.tokens ++ rest) =
      item.signature :: (⟨braces, []⟩ : Scope).walk rest := by
  have htokens : item.tokens ++ rest = item.head ++ item.name :: item.opening ::
      (item.inside ++ item.closing :: (item.ending ++ rest)) := by
    simp [tokens, head]
  rw [htokens, Scope.walk_signature htop item.startsSignature item.opens item.spells.encloses
    item.closes item.ends, item.signatureOf_eq]

end FunctionItem

theorem Ending.significant {isDefinition : Bool} {ending : List Token}
    (h : Ending isDefinition ending) : Ending isDefinition (Token.significant ending) := by
  cases h with
  | @body opening closing body opens balanced closes =>
    rw [Token.significant_cons (Token.isSignificant_of_isSymbol opens), Token.significant_append,
      Token.significant_cons (Token.isSignificant_of_isSymbol closes)]
    exact .body opens balanced.significant closes
  | semicolon h =>
    rw [Token.significant_cons (Token.isSignificant_of_isSymbol h)]
    exact .semicolon h

namespace FunctionItem

/-- The function with what carries structure in its body. -/
def significant (item : FunctionItem) : FunctionItem :=
  { item with ending := Token.significant item.ending, ends := item.ends.significant }

theorem significant_tokens (item : FunctionItem) :
    Token.significant item.tokens = item.significant.tokens := by
  have hhead : Token.significant item.head = item.head := by
    refine Token.significant_eq_self ?_
    intro t ht
    rcases item.headFits.isTypeToken_or_stringLiteral t ht with htype | hstring
    · exact isSignificant_of_isTypeToken htype
    · rw [hstring]
      rfl
  have hinside : Token.significant item.inside = item.inside :=
    Token.significant_eq_self item.spells.isSignificant_of_mem
  show Token.significant (item.head ++ item.name :: item.opening ::
    (item.inside ++ item.closing :: item.ending)) = _
  rw [Token.significant_append, hhead,
    Token.significant_cons (isSignificant_of_kind (Or.inl item.isName)),
    Token.significant_cons (Token.isSignificant_of_isSymbol item.opens), Token.significant_append,
    hinside, Token.significant_cons (Token.isSignificant_of_isSymbol item.closes)]
  rfl

theorem walk_flatMap_tokens (items : List FunctionItem) :
    Scope.start.walk (Token.significant (items.flatMap tokens)) = items.map signature := by
  have htokens : Token.significant (items.flatMap tokens) =
      items.flatMap fun item => item.significant.tokens := by
    rw [Token.significant, List.filter_flatMap]
    exact congrArg (items.flatMap ·) (funext significant_tokens)
  rw [htokens, List.map_eq_flatMap]
  exact Scope.walk_flatMap (fun item rest => item.significant.walk_tokens rfl rest) items

end FunctionItem

/-- Of functions of the grammar in a row, whatever comments stand between their tokens,
each is extracted, in order and with all that its tokens say about it. -/
theorem FunctionRecord.extract_items (items : List FunctionItem) (tokens : List Token)
    (h : Token.significant tokens = Token.significant (items.flatMap FunctionItem.tokens)) :
    FunctionRecord.extract tokens =
      items.map fun item => item.signature.withDocumentation tokens := by
  rw [extract, Signature.extract, extractFrom_eq_walk, h]
  exact (congrArg _ (FunctionItem.walk_flatMap_tokens items)).trans (List.map_map ..)

/-- The tokens of `static int f(int (*g)(int), ...) { { g(1); } }`. -/
def FunctionItem.sample : FunctionItem where
  storage := [⟨.keyword, "static", ⟨2, 1⟩⟩]
  type := [⟨.keyword, "int", ⟨2, 8⟩⟩]
  name := ⟨.identifier, "f", ⟨2, 12⟩⟩
  opening := ⟨.punctuation, "(", ⟨2, 13⟩⟩
  inside := [⟨.keyword, "int", ⟨2, 14⟩⟩, ⟨.punctuation, "(", ⟨2, 18⟩⟩, ⟨.operator, "*", ⟨2, 19⟩⟩,
    ⟨.identifier, "g", ⟨2, 20⟩⟩, ⟨.punctuation, ")", ⟨2, 21⟩⟩, ⟨.punctuation, "(", ⟨2, 22⟩⟩,
    ⟨.keyword, "int", ⟨2, 23⟩⟩, ⟨.punctuation, ")", ⟨2, 26⟩⟩, ⟨.punctuation, ",", ⟨2, 27⟩⟩,
    ⟨.operator, ".", ⟨2, 29⟩⟩, ⟨.operator, ".", ⟨2, 30⟩⟩, ⟨.operator, ".", ⟨2, 31⟩⟩]
  parameters := [⟨"int (*)(int)", some "g"⟩, ⟨"...", none⟩]
  closing := ⟨.punctuation, ")", ⟨2, 32⟩⟩
  ending := [⟨.punctuation, "\x7b", ⟨2, 34⟩⟩, ⟨.punctuation, "\x7b", ⟨2, 36⟩⟩,
    ⟨.identifier, "g", ⟨2, 38⟩⟩, ⟨.punctuation, "(", ⟨2, 39⟩⟩, ⟨.number, "1", ⟨2, 40⟩⟩,
    ⟨.punctuation, ")", ⟨2, 41⟩⟩, ⟨.punctuation, ";", ⟨2, 42⟩⟩, ⟨.punctuation, "\x7d", ⟨2, 44⟩⟩,
    ⟨.punctuation, "\x7d", ⟨2, 46⟩⟩]
  isDefinition := true
  isStorage := .word (by decide) .nil
  isType := ⟨_, [], rfl, .word (by decide) (by decide) .nil, by decide, by decide⟩
  isName := rfl
  opens := by decide
  spells := by
    have htype : IsParameterType [⟨.keyword, "int", ⟨2, 14⟩⟩] :=
      ⟨_, [], rfl, .word (by decide) (by decide) .nil, by decide, by decide⟩
    have harguments : Encloses 0 [⟨.keyword, "int", ⟨2, 23⟩⟩] :=
      encloses_flat (List.forall_mem_singleton.mpr (isFlat_of_isTypeToken (by decide)))
    have hpointer : Spells [⟨.keyword, "int", ⟨2, 14⟩⟩, ⟨.punctuation, "(", ⟨2, 18⟩⟩,
        ⟨.operator, "*", ⟨2, 19⟩⟩, ⟨.identifier, "g", ⟨2, 20⟩⟩, ⟨.punctuation, ")", ⟨2, 21⟩⟩,
        ⟨.punctuation, "(", ⟨2, 22⟩⟩, ⟨.keyword, "int", ⟨2, 23⟩⟩, ⟨.punctuation, ")", ⟨2, 26⟩⟩]
        ⟨"int (*)(int)", some "g"⟩ :=
      .pointer htype (by decide) (by decide) rfl (by decide) (by decide) (by decide) harguments
        (by decide)
    have hcomma : Token.isSymbol ⟨.punctuation, ",", ⟨2, 27⟩⟩ "," = true := by decide
    have hellipsis : Spells [⟨.operator, ".", ⟨2, 29⟩⟩, ⟨.operator, ".", ⟨2, 30⟩⟩,
        ⟨.operator, ".", ⟨2, 31⟩⟩] ⟨"...", none⟩ := .ellipsis (by decide) (by decide) (by decide)
    exact .all (SpellsAll.cons hpointer hcomma (.one hellipsis)) (by simp)
  closes := by decide
  ends := by
    have hbody : ClosesBraces 0 [⟨.punctuation, "\x7b", ⟨2, 36⟩⟩, ⟨.identifier, "g", ⟨2, 38⟩⟩,
        ⟨.punctuation, "(", ⟨2, 39⟩⟩, ⟨.number, "1", ⟨2, 40⟩⟩, ⟨.punctuation, ")", ⟨2, 41⟩⟩,
        ⟨.punctuation, ";", ⟨2, 42⟩⟩, ⟨.punctuation, "\x7d", ⟨2, 44⟩⟩] := by decide
    exact .body (by decide) hbody (by decide)

/-- The call in the body is no function of its own, and neither is the parameter. -/
theorem FunctionRecord.extract_items_sample :
    Token.significant (⟨.lineComment, "// F", ⟨1, 1⟩⟩ :: FunctionItem.sample.tokens) =
        Token.significant ([FunctionItem.sample].flatMap FunctionItem.tokens) ∧
      extract (⟨.lineComment, "// F", ⟨1, 1⟩⟩ :: FunctionItem.sample.tokens) =
        [FunctionItem.sample.signature.withDocumentation
          (⟨.lineComment, "// F", ⟨1, 1⟩⟩ :: FunctionItem.sample.tokens)] :=
  ⟨rfl, extract_items [.sample] _ rfl⟩

end HeaderLint
