import HeaderLint.Proofs.Signature.Complete
import HeaderLint.Proofs.Signature.Declared
import HeaderLint.Proofs.Signature.Moved
import HeaderLint.Proofs.Signature.StatementWords
import HeaderLint.Proofs.Token.Printed

/-!
# A signature is read back from what is printed of it

A signature is printed on one line.  With a semicolon behind it the line is a declaration, and where
no parameter is an array the declaration says what the signature says
(`FunctionRecord.extract_render`).

The line is printed with the tokens of the function: those of its return type, its name, its
parentheses and its parameters (`Span.prints_render`).  So a scan of the line finds these tokens
again, and the walk reads a signature by its tokens and not by their places
(`Signature.extract_eq_walk_of_unplaced`).
-/

namespace HeaderLint

open Text
open Token (scan significant)

/-! ## Printed types and lists of parameters -/

section
variable {cs : List Char} {us : List Token}

theorem forall_head?_cons {c : Char} (h : isWordChar c = false) (cs : List Char) :
    ∀ d ∈ (c :: cs).head?, isWordChar d = false := by
  rintro d ⟨⟩
  exact h

/-- Directly behind a word of a type stands a mark. -/
theorem isWordChar_head?_of_isSpaced_eq_false {t u : Token} (ht : t.IsScannedWord)
    (hu : u.IsPrinted) (hspaced : isSpaced t.text u.text = false) (cs : List Char) :
    ∀ d ∈ (u.text.toList ++ cs).head?, isWordChar d = false := by
  rcases hu with hword | ⟨c, htext, hmark⟩
  · rw [isSpaced_of_isWord ht.isWord (Or.inl hword.isWord)] at hspaced
    cases hspaced
  · have hmarks : ∀ m ∈ printedMarks, isWordChar m.2 = false := by decide
    rw [htext]
    exact forall_head?_cons (hmarks _ hmark) _

theorem Prints.joinAfter {t : Token} {ts : List Token} (hts : ∀ u ∈ t :: ts, u.IsPrinted)
    (hcs : ∀ d ∈ cs.head?, isWordChar d = false) (h : Prints cs us) :
    Prints (t.text.toList ++ ((HeaderLint.joinAfter t.text (ts.map Token.text)).toList ++ cs))
      (t :: (ts ++ us)) := by
  induction ts generalizing t with
  | nil =>
    obtain ⟨ht, -⟩ := List.forall_mem_cons.mp hts
    exact .token ht (fun _ => hcs) h
  | cons u ts ih =>
    obtain ⟨ht, hrest⟩ := List.forall_mem_cons.mp hts
    have hu := (List.forall_mem_cons.mp hrest).1
    have hafter := ih hrest
    rw [List.map_cons, HeaderLint.joinAfter, String.toList_append, String.toList_append,
      List.append_assoc, List.append_assoc, List.cons_append]
    cases hspaced : isSpaced t.text u.text with
    | true => exact .token ht (fun _ => forall_head?_cons (by decide) _) (.space hafter)
    | false =>
      refine .token ht (fun hword => ?_) hafter
      exact isWordChar_head?_of_isSpaced_eq_false hword hu hspaced _

/-- The text of a type is printed with its tokens. -/
theorem Prints.typeText {ts : List Token} (hts : ∀ t ∈ ts, t.IsPrinted)
    (hcs : ∀ d ∈ cs.head?, isWordChar d = false) (h : Prints cs us) :
    Prints ((HeaderLint.typeText ts).toList ++ cs) (ts ++ us) := by
  cases ts with
  | nil => exact h
  | cons t ts =>
    rw [HeaderLint.typeText, List.map_cons, joinTexts, String.toList_append, List.append_assoc]
    exact .joinAfter hts hcs h

/-- The texts of parts with commas between them are printed with the tokens. -/
theorem Prints.separated {parts : List (List Token)} {tokens : List Token}
    (hparts : Separated parts tokens) (hprinted : ∀ t ∈ tokens, t.IsPrinted)
    (hcs : ∀ d ∈ cs.head?, isWordChar d = false) (h : Prints cs us) :
    Prints ((", ".intercalate (parts.map HeaderLint.typeText)).toList ++ cs) (tokens ++ us) := by
  induction hparts with
  | one part =>
    rw [List.map_singleton, String.intercalate_singleton]
    exact .typeText hprinted hcs h
  | @cons part parts comma rest separates more ih =>
    obtain ⟨hpart, hcomma, hrest⟩ : (∀ t ∈ part, t.IsPrinted) ∧ comma.IsPrinted ∧
        ∀ t ∈ rest, t.IsPrinted := by
      simpa only [List.forall_mem_append, List.forall_mem_cons] using hprinted
    have hnext : Prints (',' :: ' ' ::
        ((", ".intercalate (parts.map HeaderLint.typeText)).toList ++ cs))
        (comma :: (rest ++ us)) := by
      have htoken := Prints.token hcomma (fun _ => forall_head?_cons (by decide) _)
        (.space (ih hrest))
      rwa [Token.text_of_isSymbol separates] at htoken
    obtain ⟨next, others, rfl⟩ := List.exists_cons_of_ne_nil more.ne_nil
    rw [List.map_cons, List.map_cons, String.intercalate_cons_cons, String.append_assoc,
      String.toList_append, String.toList_append, List.append_assoc, List.append_assoc,
      List.append_assoc]
    exact .typeText hpart (forall_head?_cons (by decide) _) hnext

end

/-! ## Tokens of a source -/

section
variable {source : String} {t : Token}

theorem isScannedWord_of_isWord (ht : t ∈ scan source) (h : isWord t = true) :
    t.IsScannedWord := by
  rw [isWord, Bool.or_eq_true, beq_iff_eq, beq_iff_eq] at h
  exact Token.isScannedWord_of_mem_scan ht h

theorem isPrinted_of_isArgumentToken (ht : t ∈ scan source) (h : isArgumentToken t = true) :
    t.IsPrinted := by
  simp only [isArgumentToken, Bool.or_eq_true] at h
  rcases h with (((h | h) | h) | h) | h
  · exact Or.inl (isScannedWord_of_isWord ht h)
  · exact Or.inr (Token.isPrintedMark_of_isSymbol ht (isSymbol_of_isStar h) rfl (by decide))
  · exact Or.inr (Token.isPrintedMark_of_isSymbol ht h rfl (by decide))
  · exact Or.inr (Token.isPrintedMark_of_isSymbol ht h rfl (by decide))
  · exact Or.inr (Token.isPrintedMark_of_isSymbol ht h rfl (by decide))

theorem isArgumentToken_of_isWord_or_isStar (h : (isWord t || isStar t) = true) :
    isArgumentToken t = true := by
  rw [isArgumentToken, h]
  rfl

end

/-- The tokens of a parameter that is no array are words and marks that are printed. -/
theorem ArrayFree.isPrinted {source : String} {part : List Token} (h : ArrayFree part)
    (hsource : ∀ t ∈ part, t ∈ scan source) : ∀ t ∈ part, t.IsPrinted := by
  have hkinds : ∀ t ∈ part, isArgumentToken t = true ∨ t.isSymbol "." = true := by
    cases h with
    | plain _ plain => exact fun t ht => Or.inl (isArgumentToken_of_isWord_or_isStar (plain t ht))
    | @pointer left arguments opening star name closing opening' closing' plain opens points isName
        closes opens' arguments_plain _ closes' =>
      have hname : isWord name = true := by
        rw [isWord, isName]
        rfl
      intro t ht
      left
      revert t ht
      simp only [List.forall_mem_append, List.forall_mem_cons, List.not_mem_nil]
      exact ⟨fun t ht => isArgumentToken_of_isWord_or_isStar (plain t ht),
        by simp [isArgumentToken, opens], by simp [isArgumentToken, points],
        by simp [isArgumentToken, hname], by simp [isArgumentToken, closes],
        by simp [isArgumentToken, opens'], arguments_plain, by simp [isArgumentToken, closes'],
        fun _ hnil => hnil.elim⟩
    | ellipsis ha hb hc =>
      rw [List.forall_mem_cons, List.forall_mem_cons, List.forall_mem_singleton]
      exact ⟨Or.inr ha, Or.inr hb, Or.inr hc⟩
  intro t ht
  rcases hkinds t ht with h | h
  · exact isPrinted_of_isArgumentToken (hsource t ht) h
  · exact Or.inr (Token.isPrintedMark_of_isSymbol (hsource t ht) h rfl (by decide))

/-! ## Printed signatures -/

theorem keptTokens_keptTokens (head : List Token) :
    keptTokens (keptTokens head) = keptTokens head := by
  rw [keptTokens, keptTokens, List.filter_filter]
  simp only [Bool.and_self]

/-- The tokens around the parentheses are those of a function without arrays among its parameters:
words and stars make up the return type, which starts no other statement, and each parameter is
a plain one, a pointer to a function or three full stops. -/
structure Span.IsArrayFree {ts : List Token} (span : Span ts) : Prop where
  returnType : ∀ t ∈ keptTokens span.head, (isWord t || isStar t) = true
  notStatement : (keptTokens span.head).head?.any isStatementWord = false
  parameters : span.inside = [] ∨
    ∃ parts, Separated parts span.inside ∧ ∀ part ∈ parts, ArrayFree part

/-- A mark that is printed. -/
def printedMark (symbol : String) : Token := ⟨.punctuation, symbol, .start⟩

/-- The word that is printed for a list without parameters. -/
def printedVoid : Token := ⟨.keyword, "void", .start⟩

theorem isScannedWord_printedVoid : printedVoid.IsScannedWord := by
  constructor <;> decide

namespace Span

section
variable {ts : List Token} (span : Span ts)

theorem name_lt : span.opening - 1 < ts.length := by
  have := span.opening_lt
  have := span.closing_lt
  omega

/-- The token of the name. -/
def name : Token := ts.get ⟨span.opening - 1, span.name_lt⟩

/-- The tokens between the parentheses as they are printed. -/
def printedInside : List Token := if span.inside = [] then [printedVoid] else span.inside

/-- The tokens that the signature is printed with, and a semicolon. -/
def printedTokens : List Token :=
  keptTokens span.head ++ span.name :: printedMark "(" ::
    (span.printedInside ++ printedMark ")" :: [printedMark ";"])

theorem parameters_printedInside : parameters span.printedInside = parameters span.inside := by
  rw [printedInside]
  split
  · next hinside =>
    rw [hinside]
    decide
  · rfl

theorem encloses_printedInside : Encloses 0 span.printedInside := by
  rw [printedInside]
  split
  · exact encloses_flat (List.forall_mem_singleton.mpr (isFlat_of_isTypeToken (by decide)))
  · exact span.encloses

end

variable {source : String} {span : Span (significant (scan source))}

theorem mem_scan_of_mem_inside {t : Token} (ht : t ∈ span.inside) : t ∈ scan source :=
  (List.mem_filter.mp (List.mem_of_mem_take (List.mem_of_mem_drop ht))).1

theorem mem_scan_of_mem_keptTokens {t : Token} (ht : t ∈ keptTokens span.head) :
    t ∈ scan source :=
  (List.mem_filter.mp (span.mem_of_mem_head (List.mem_filter.mp ht).1)).1

theorem isScannedWord_name (span : Span (significant (scan source))) :
    span.name.IsScannedWord :=
  Token.isScannedWord_of_mem_scan (List.mem_filter.mp (List.getElem_mem _)).1
    (Or.inr span.starts.isIdentifier)

theorem isPrinted_of_mem_inside {parts : List (List Token)} (hparts : Separated parts span.inside)
    (hfree : ∀ part ∈ parts, ArrayFree part) : ∀ t ∈ span.inside, t.IsPrinted := by
  intro t ht
  rcases hparts.mem_or_isSymbol ht with ⟨part, hpart, hmem⟩ | hcomma
  · have hsource : ∀ u ∈ part, u ∈ scan source := fun u hu =>
      mem_scan_of_mem_inside (hparts.subset_of_mem hpart hu)
    exact (hfree part hpart).isPrinted hsource t hmem
  · exact isPrinted_of_isArgumentToken (mem_scan_of_mem_inside ht)
      (by simp [isArgumentToken, hcomma])

/-- Parameters without arrays are declared with the texts of their tokens. -/
theorem map_render_parameters {parts : List (List Token)} (hparts : Separated parts span.inside)
    (hfree : ∀ part ∈ parts, ArrayFree part) :
    (parts.map parameter).map Parameter.render = parts.map typeText := by
  rw [List.map_map]
  refine List.map_congr_left fun part hpart => (hfree part hpart).render_parameter ?_
  intro t ht hword
  have hsource := mem_scan_of_mem_inside (hparts.subset_of_mem hpart ht)
  exact (isScannedWord_of_isWord hsource hword).isWord

/-- A list of parameters without arrays is printed with its tokens. -/
theorem prints_parameters (h : span.IsArrayFree) {cs : List Char} {us : List Token}
    (hcs : ∀ d ∈ cs.head?, isWordChar d = false) (hrest : Prints cs us) :
    Prints ((if (parameters span.inside).isEmpty then "void"
        else ", ".intercalate ((parameters span.inside).map Parameter.render)).toList ++ cs)
      (span.printedInside ++ us) := by
  rcases h.parameters with hinside | ⟨parts, hparts, hfree⟩
  · rw [printedInside, if_pos hinside, hinside]
    exact .word isScannedWord_printedVoid hcs hrest
  · have hne : span.inside ≠ [] :=
      hparts.tokens_ne_nil fun part hpart => (hfree part hpart).isPart.ne_nil
    have hprinted := isPrinted_of_mem_inside hparts hfree
    rw [hparts.parameters_eq fun part hpart => (hfree part hpart).isPart, printedInside,
      if_neg hne]
    cases hvoid : isVoidList parts with
    | true =>
      obtain ⟨t, rfl, hkeyword⟩ := exists_of_isVoidList hvoid
      have hinside := hparts.eq_of_singleton
      obtain ⟨hkind, htext⟩ := Bool.and_eq_true_iff.mp hkeyword
      rw [hinside, List.forall_mem_singleton] at hprinted
      rw [hinside, ← beq_iff_eq.mp htext]
      exact .token hprinted (fun _ => hcs) hrest
    | false =>
      have hrender := map_render_parameters hparts hfree
      have hsome : (parts.map parameter).isEmpty = false := by
        simpa using hparts.ne_nil
      simp only [Bool.false_eq_true, if_false, hsome, hrender]
      exact .separated hparts hprinted hcs hrest

/-- The signature is printed with its tokens. -/
theorem prints_render (h : span.IsArrayFree) :
    Prints (span.signature.render ++ ";").toList span.printedTokens := by
  have hreturn : ∀ t ∈ keptTokens span.head, t.IsPrinted := fun t ht =>
    isPrinted_of_isArgumentToken (mem_scan_of_mem_keptTokens ht)
      (isArgumentToken_of_isWord_or_isStar (h.returnType t ht))
  have hending : Prints [')', ';'] [printedMark ")", printedMark ";"] :=
    .mark rfl (by decide) (.mark rfl (by decide) .nil)
  have hopening := Prints.mark (t := printedMark "(") (c := '(') rfl (by decide)
    (prints_parameters h (forall_head?_cons (by decide) _) hending)
  have hname := Prints.word (isScannedWord_name span) (forall_head?_cons (by decide) _) hopening
  have hall := Prints.typeText hreturn (forall_head?_cons (by decide) _) (.space hname)
  have htext : (span.signature.render ++ ";").toList =
      (typeText (keptTokens span.head)).toList ++ (' ' :: (span.name.text.toList ++ '(' ::
        ((if (parameters span.inside).isEmpty then "void"
          else ", ".intercalate ((parameters span.inside).map Parameter.render)).toList ++
            [')', ';']))) := by
    rw [Signature.render]
    simp only [String.toList_append, List.append_assoc]
    rfl
  rw [htext]
  exact hall

end Span

/-! ## Reading a signature back -/

/-- What the signatures of tokens are does not depend on the places of the tokens. -/
theorem Signature.extract_eq_walk_of_unplaced {tokens others : List Token}
    (h : (significant tokens).map Token.unplaced = others.map Token.unplaced) :
    (extract tokens).map (Signature.moved fun _ => .start) =
      (Scope.start.walk others).map (Signature.moved fun _ => .start) := by
  rw [extract_eq_walk, ← Scope.walk_moved, ← Scope.walk_moved]
  exact congrArg _ h

namespace Span

variable {source : String} {span : Span (significant (scan source))}

/-- The tokens that the signature is printed with start one. -/
theorem startsSignature_keptTokens (h : span.IsArrayFree) :
    StartsSignature span.name (keptTokens span.head) := by
  refine ⟨span.starts.isIdentifier, h.notStatement, ?_, ?_⟩
  · exact headFits_of_forall_isTypeToken
      (fun t ht => isTypeToken_of_isWord_or_isStar (h.returnType t ht)) none
  · rw [keptTokens_keptTokens]
    exact span.starts.typed

/-- The walk over the printed tokens finds the signature. -/
theorem walk_printedTokens (h : span.IsArrayFree) :
    Scope.start.walk span.printedTokens =
      [signatureOf span.name (keptTokens span.head) span.printedInside false] :=
  have htop : isTopLevel [] = true := rfl
  Scope.walk_signature htop (startsSignature_keptTokens h) (by decide)
    span.encloses_printedInside (by decide) (.semicolon (by decide)) []

end Span

namespace FunctionRecord

/-- A signature without arrays among its parameters is read back from what is printed of it: with a
semicolon behind it there is one function, a declaration that is not static, with the same name,
return type and parameters. -/
theorem extract_render {source : String} (span : Span (significant (scan source)))
    (h : span.IsArrayFree) :
    let f := span.record (scan source)
    f ∈ extract (scan source) ∧
      ∃ g, extract (scan (f.render ++ ";")) = [g] ∧ g.name = f.name ∧
        g.returnType = f.returnType ∧ g.parameters = f.parameters ∧ g.isStatic = false ∧
        g.isDefinition = false := by
  intro f
  refine ⟨mem_extract_iff.mpr ⟨span, rfl⟩, ?_⟩
  have hscan := (Span.prints_render h).unplaced_scanFrom .start true
  have hextract := Signature.extract_eq_walk_of_unplaced hscan
  rw [Span.walk_printedTokens h, List.map_singleton, List.map_eq_singleton_iff] at hextract
  obtain ⟨s, hs, hsame⟩ := hextract
  have hname : s.name = span.name.text := congrArg Signature.name hsame
  have hreturn : s.returnType = f.returnType := by
    have htype : s.returnType = typeText (keptTokens (keptTokens span.head)) :=
      congrArg Signature.returnType hsame
    rw [htype, keptTokens_keptTokens]
    rfl
  have hparameters : s.parameters = f.parameters :=
    (congrArg Signature.parameters hsame).trans span.parameters_printedInside
  have hstatic : s.isStatic = false := by
    have hany : s.isStatic = (keptTokens span.head).any (Token.isKeyword · "static") :=
      congrArg Signature.isStatic hsame
    rw [hany]
    refine any_static_eq_false fun t ht => ?_
    exact Bool.not_eq_true' _ ▸ (Bool.and_eq_true_iff.mp (List.mem_filter.mp ht).2).2
  have hdefinition : s.isDefinition = false := congrArg Signature.isDefinition hsame
  have hrecords : extract (scan (f.render ++ ";")) =
      [s.withDocumentation (scan (f.render ++ ";"))] := by
    rw [extract, show Signature.extract (scan (f.render ++ ";")) = [s] from hs]
    rfl
  exact ⟨_, hrecords, hname, hreturn, hparameters, hstatic, hdefinition⟩

/-- The function is static, and it takes a pointer to a function that takes another one. -/
theorem extract_render_pointer :
    let source := "static char *pick(int (*by)(void (*)(int), char *), ...);"
    ∃ span : Span (significant (scan source)), span.IsArrayFree ∧
      span.record (scan source) ∈ extract (scan source) ∧
      ∃ g, extract (scan ((span.record (scan source)).render ++ ";")) = [g] ∧ g.name = "pick" ∧
        g.returnType = "char *" ∧
        g.parameters = [⟨"int (*)(void (*)(int), char *)", some "by"⟩, ⟨"...", none⟩] ∧
        g.isStatic = false ∧ g.isDefinition = false := by
  intro source
  let arguments : List Token :=
    [⟨.keyword, "void", ⟨1, 29⟩⟩, ⟨.punctuation, "(", ⟨1, 34⟩⟩, ⟨.operator, "*", ⟨1, 35⟩⟩,
      ⟨.punctuation, ")", ⟨1, 36⟩⟩, ⟨.punctuation, "(", ⟨1, 37⟩⟩, ⟨.keyword, "int", ⟨1, 38⟩⟩,
      ⟨.punctuation, ")", ⟨1, 41⟩⟩, ⟨.punctuation, ",", ⟨1, 42⟩⟩, ⟨.keyword, "char", ⟨1, 44⟩⟩,
      ⟨.operator, "*", ⟨1, 49⟩⟩]
  let pointer : List Token :=
    [⟨.keyword, "int", ⟨1, 19⟩⟩] ++ ⟨.punctuation, "(", ⟨1, 23⟩⟩ :: ⟨.operator, "*", ⟨1, 24⟩⟩ ::
      ⟨.identifier, "by", ⟨1, 25⟩⟩ :: ⟨.punctuation, ")", ⟨1, 27⟩⟩ ::
      ⟨.punctuation, "(", ⟨1, 28⟩⟩ :: (arguments ++ [⟨.punctuation, ")", ⟨1, 50⟩⟩])
  let ellipsis : List Token :=
    [⟨.operator, ".", ⟨1, 53⟩⟩, ⟨.operator, ".", ⟨1, 54⟩⟩, ⟨.operator, ".", ⟨1, 55⟩⟩]
  have hsome : (candidateAt? (significant (scan source)) 4).isSome = true := by decide +kernel
  obtain ⟨c, hc⟩ := Option.isSome_iff_exists.mp hsome
  obtain ⟨span, hopening, hcandidate⟩ := exists_span hc
  have hfound : (candidateAt? (significant (scan source)) 4).map
      (fun c => (c.signature, c.inside)) =
        some (⟨"pick", "char *", [⟨"int (*)(void (*)(int), char *)", some "by"⟩, ⟨"...", none⟩],
          ⟨1, 14⟩, true, false⟩, pointer ++ ⟨.punctuation, ",", ⟨1, 51⟩⟩ :: ellipsis) := by
    decide +kernel
  rw [hc, ← hcandidate] at hfound
  obtain ⟨hsignature, hinside⟩ := Prod.mk.inj (Option.some.inj hfound)
  change span.signature = _ at hsignature
  change span.inside = _ at hinside
  have hkept : keptTokens span.head =
      [⟨.keyword, "char", ⟨1, 8⟩⟩, ⟨.operator, "*", ⟨1, 13⟩⟩] := by
    rw [Span.head, hopening]
    decide +kernel
  have hbalanced : insideParens? 0 (arguments ++ [⟨.punctuation, ")", ⟨1, 50⟩⟩]) =
      some arguments := by decide
  have hfree : span.IsArrayFree := by
    refine ⟨?_, ?_, Or.inr ⟨[pointer, ellipsis], ?_, ?_⟩⟩
    · rw [hkept]
      decide
    · rw [hkept]
      decide
    · rw [hinside]
      exact .cons _ (by decide) (.one _)
    · rw [List.forall_mem_cons, List.forall_mem_singleton]
      refine ⟨.pointer ?_ ?_ ?_ rfl ?_ ?_ ?_ (insideParens?_eq_some_iff.mp hbalanced).1 ?_,
        .ellipsis ?_ ?_ ?_⟩ <;> decide
  obtain ⟨hmem, g, hg, hname, hreturn, hparameters, hkind⟩ := extract_render span hfree
  exact ⟨span, hfree, hmem, g, hg, hname.trans (congrArg Signature.name hsignature),
    hreturn.trans (congrArg Signature.returnType hsignature),
    hparameters.trans (congrArg Signature.parameters hsignature), hkind⟩

end FunctionRecord

end HeaderLint
