import HeaderLint.DocComment
import HeaderLint.Proofs.Signature.Block

/-!
# A grammar of functions

The functions that a file may declare and define, as tokens that carry structure.  A
`FunctionItem` is one of them: storage words, a type, a name, a list of parameters
between parentheses, and a semicolon or a body.

A type is made of words, where a tag follows `struct`, `enum` and `union`, and of stars
behind them (`IsType`).  `Spells` says which tokens stand for a parameter, and
`SpellsList` which stand for all of them.  A body holds any tokens whose braces are
balanced (`ClosesBraces`).
-/

namespace HeaderLint

/-! ## Types -/

/-- A keyword or an identifier. -/
def isWord (t : Token) : Bool := t.kind == .keyword || t.kind == .identifier

/-- A word that may be part of a type. -/
def isTypeWord (t : Token) : Bool := isWord t && !isStorageWord t && !isStatementWord t

/-- A star of a pointer. -/
def isStar (t : Token) : Bool := t.kind == .operator && t.text == "*"

/-- A word such as `const`, which may stand among the stars of a parameter. -/
def isQualifier (t : Token) : Bool := isWord t && !announcesTag t

/-- The words of a type. -/
inductive TypeWords : List Token → Prop where
  | nil : TypeWords []
  | word {t : Token} {ts : List Token} (h : isTypeWord t = true) (plain : announcesTag t = false)
      (rest : TypeWords ts) : TypeWords (t :: ts)
  | tag {t tag : Token} {ts : List Token} (announces : announcesTag t = true)
      (h : isTypeWord tag = true) (isTag : tag.kind = .identifier) (rest : TypeWords ts) :
      TypeWords (t :: tag :: ts)

/-- A type: words, and marks behind them. -/
def IsType (isMark : Token → Bool) (type : List Token) : Prop :=
  ∃ words marks, type = words ++ marks ∧ TypeWords words ∧ words ≠ [] ∧
    ∀ t ∈ marks, isMark t = true

/-- A type of a parameter: words, and stars and qualifiers behind them. -/
abbrev IsParameterType : List Token → Prop := IsType fun t => isStar t || isQualifier t

/-- A type that ends with no name: it is a word, it ends with a tag, or its last token is
no identifier. -/
inductive EndsNameless : List Token → Prop where
  | word (t : Token) : EndsNameless [t]
  | tag (type : List Token) {t : Token} (tag : Token) (announces : announcesTag t = true) :
      EndsNameless (type ++ [t, tag])
  | mark (type : List Token) {t : Token} (h : t.kind ≠ .identifier) : EndsNameless (type ++ [t])

/-! ## Parameters -/

/-- The bounds of an array. -/
inductive Bounds : List Token → Prop where
  | nil : Bounds []
  | cons {opening closing : Token} {inner rest : List Token} (opens : opening.isSymbol "[" = true)
      (plain : ∀ t ∈ inner, t.kind = .identifier ∨ t.kind = .number)
      (closes : closing.isSymbol "]" = true) (more : Bounds rest) :
      Bounds (opening :: (inner ++ closing :: rest))

/-- A token of the parameters of a function pointer. -/
def isArgumentToken (t : Token) : Bool :=
  isWord t || isStar t || t.isSymbol "," || t.isSymbol "(" || t.isSymbol ")"

/-- The tokens stand for a parameter. -/
inductive Spells : List Token → Parameter → Prop where
  /-- A type and a name. -/
  | named {type : List Token} {name : Token} (isType : IsParameterType type)
      (isName : name.kind = .identifier) :
      Spells (type ++ [name]) ⟨typeText type, some name.text⟩
  /-- A type without a name. -/
  | unnamed {type : List Token} (isType : IsParameterType type) (nameless : EndsNameless type) :
      Spells type ⟨typeText type, none⟩
  /-- A type, a name and bounds. -/
  | array {type bounds : List Token} {name : Token} (isType : IsParameterType type)
      (isName : name.kind = .identifier) (isBounds : Bounds bounds) (bounded : bounds ≠ []) :
      Spells (type ++ name :: bounds) ⟨typeText (type ++ bounds), some name.text⟩
  /-- A pointer to a function: a type, a star and a name between parentheses, and tokens
  between parentheses. -/
  | pointer {type arguments : List Token} {opening star name closing opening' closing' : Token}
      (isType : IsParameterType type) (opens : opening.isSymbol "(" = true)
      (points : isStar star = true) (isName : name.kind = .identifier)
      (closes : closing.isSymbol ")" = true) (opens' : opening'.isSymbol "(" = true)
      (plain : ∀ t ∈ arguments, isArgumentToken t = true) (balanced : Encloses 0 arguments)
      (closes' : closing'.isSymbol ")" = true) :
      Spells (type ++ opening :: star :: name :: closing :: opening' :: (arguments ++ [closing']))
        ⟨typeText (type ++ opening :: star :: closing :: opening' :: (arguments ++ [closing'])),
          some name.text⟩
  /-- Any further arguments. -/
  | ellipsis {a b c : Token} (ha : a.isSymbol "." = true) (hb : b.isSymbol "." = true)
      (hc : c.isSymbol "." = true) : Spells [a, b, c] ⟨"...", none⟩

/-- The tokens stand for the parameters, with commas between them. -/
inductive SpellsAll : List Token → List Parameter → Prop where
  | one {part : List Token} {p : Parameter} (h : Spells part p) : SpellsAll part [p]
  | cons {part rest : List Token} {comma : Token} {p : Parameter} {ps : List Parameter}
      (h : Spells part p) (separates : comma.isSymbol "," = true) (more : SpellsAll rest ps) :
      SpellsAll (part ++ comma :: rest) (p :: ps)

/-- The tokens between the parentheses of a function that has the parameters.  The word
`void` alone stands for none. -/
inductive SpellsList : List Token → List Parameter → Prop where
  | empty : SpellsList [] []
  | void {t : Token} (h : t.isKeyword "void" = true) : SpellsList [t] []
  | all {tokens : List Token} {ps : List Parameter} (h : SpellsAll tokens ps)
      (notVoid : ∀ t, tokens = [t] → t.isKeyword "void" = false) : SpellsList tokens ps

/-! ## Functions -/

/-- Storage words, and strings behind `extern`. -/
inductive StorageWords : List Token → Prop where
  | nil : StorageWords []
  | word {t : Token} {ts : List Token} (h : isStorageWord t = true) (rest : StorageWords ts) :
      StorageWords (t :: ts)
  | linkage {word string : Token} {ts : List Token} (isExtern : word.isKeyword "extern" = true)
      (isString : string.kind = .stringLiteral) (rest : StorageWords ts) :
      StorageWords (word :: string :: ts)

/-- What follows the parameters of a function: a body for a definition, a semicolon for
a declaration. -/
inductive Ending : Bool → List Token → Prop where
  | body {opening closing : Token} {body : List Token} (opens : opening.isSymbol "\x7b" = true)
      (balanced : ClosesBraces 0 body) (closes : closing.isSymbol "\x7d" = true) :
      Ending true (opening :: (body ++ [closing]))
  | semicolon {t : Token} (h : t.isSymbol ";" = true) : Ending false [t]

/-- A declaration or a definition of a function. -/
structure FunctionItem where
  /-- What stands before the return type. -/
  storage : List Token
  /-- The return type. -/
  type : List Token
  name : Token
  /-- The parenthesis before the parameters. -/
  opening : Token
  /-- The tokens of the parameters. -/
  inside : List Token
  parameters : List Parameter
  /-- The parenthesis behind the parameters. -/
  closing : Token
  /-- What follows the parameters. -/
  ending : List Token
  isDefinition : Bool
  isStorage : StorageWords storage
  isType : IsType isStar type
  isName : name.kind = .identifier
  opens : opening.isSymbol "(" = true
  spells : SpellsList inside parameters
  closes : closing.isSymbol ")" = true
  ends : Ending isDefinition ending

namespace FunctionItem

/-- The tokens of the function. -/
def tokens (item : FunctionItem) : List Token :=
  item.storage ++ item.type ++ item.name :: item.opening ::
    (item.inside ++ item.closing :: item.ending)

/-- The signature of the function. -/
def signature (item : FunctionItem) : Signature where
  name := item.name.text
  returnType := typeText item.type
  parameters := item.parameters
  position := item.name.position
  isStatic := item.storage.any (Token.isKeyword · "static")
  isDefinition := item.isDefinition

end FunctionItem

/-! ## The tokens of a type -/

section
variable {t : Token} {type : List Token} {isMark : Token → Bool}

theorem isTypeToken_of_isWord (h : isWord t = true) : isTypeToken t = true := by
  rw [isWord] at h
  rw [isTypeToken, h, Bool.true_or]

theorem isTypeToken_of_isStar (h : isStar t = true) : isTypeToken t = true := by
  obtain ⟨hkind, htext⟩ := Bool.and_eq_true_iff.mp h
  rw [isTypeToken, hkind, htext]
  simp

theorem isWord_of_announcesTag (h : announcesTag t = true) : isWord t = true := by
  have hkind : (t.kind == .keyword) = true := by
    rw [announcesTag, Bool.or_eq_true, Bool.or_eq_true] at h
    rcases h with (h | h) | h <;> exact (Bool.and_eq_true_iff.mp h).1
  rw [isWord, hkind, Bool.true_or]

theorem announcesTag_of_kind_ne (h : t.kind ≠ .keyword) : announcesTag t = false := by
  have hkind : (t.kind == .keyword) = false := beq_false_of_ne h
  simp [announcesTag, Token.isKeyword, hkind]

/-- A word that announces a tag is no storage word and starts no statement. -/
theorem isTypeWord_of_announcesTag (h : announcesTag t = true) : isTypeWord t = true := by
  rw [isTypeWord, isWord_of_announcesTag h, isStorageWord, isStatementWord]
  rw [announcesTag, Bool.or_eq_true, Bool.or_eq_true] at h
  rcases h with (h | h) | h <;>
    rw [beq_iff_eq.mp (Bool.and_eq_true_iff.mp h).2] <;> simp [storageWords, statementWords]

theorem TypeWords.isTypeWord_of_mem {words : List Token} (h : TypeWords words) :
    ∀ t ∈ words, isTypeWord t = true := by
  induction h with
  | nil => simp
  | word h _ _ ih => exact List.forall_mem_cons.mpr ⟨h, ih⟩
  | tag announces h _ _ ih =>
    exact List.forall_mem_cons.mpr
      ⟨isTypeWord_of_announcesTag announces, List.forall_mem_cons.mpr ⟨h, ih⟩⟩

/-- The last of the words of a type announces no tag. -/
theorem TypeWords.announcesTag_getLast? {words : List Token} (h : TypeWords words) :
    ∀ t ∈ words.getLast?, announcesTag t = false := by
  induction h with
  | nil => simp
  | @word t ts _ plain _ ih =>
    cases ts with
    | nil => simpa using plain
    | cons u ts => exact ih
  | @tag t tag ts _ _ isTag _ ih =>
    cases ts with
    | nil =>
      have hplain : announcesTag tag = false := announcesTag_of_kind_ne (by rw [isTag]; decide)
      simpa using hplain
    | cons u ts => exact ih

theorem IsType.ne_nil (h : IsType isMark type) : type ≠ [] := by
  obtain ⟨words, marks, rfl, -, hne, -⟩ := h
  exact List.append_ne_nil_of_left_ne_nil hne marks

theorem IsType.forall_mem {p : Token → Prop} (h : IsType isMark type)
    (hword : ∀ t, isTypeWord t = true → p t) (hmark : ∀ t, isMark t = true → p t) :
    ∀ t ∈ type, p t := by
  obtain ⟨words, marks, rfl, hwords, -, hmarks⟩ := h
  intro t ht
  rcases List.mem_append.mp ht with ht | ht
  · exact hword t (hwords.isTypeWord_of_mem t ht)
  · exact hmark t (hmarks t ht)

/-- The last token of a type announces no tag. -/
theorem IsType.announcesTag_getLast? (h : IsType isMark type)
    (hmark : ∀ t, isMark t = true → announcesTag t = false) :
    ∀ t ∈ type.getLast?, announcesTag t = false := by
  obtain ⟨words, marks, rfl, hwords, -, hmarks⟩ := h
  intro t ht
  rw [List.getLast?_append] at ht
  cases hlast : marks.getLast? with
  | none =>
    rw [hlast, Option.none_or] at ht
    exact hwords.announcesTag_getLast? t ht
  | some u =>
    rw [hlast, Option.some_or] at ht
    cases ht
    exact hmark t (hmarks t (List.mem_of_getLast? hlast))

end

end HeaderLint
