import Mathlib.Data.List.Forall2
import HeaderLint.Proofs.DocCheck.Missing
import HeaderLint.Proofs.DocComment.Nearest
import HeaderLint.Proofs.Signature.Moved
import HeaderLint.Proofs.Token.LineEnd

/-!
# A comment that is inserted

A comment on lines of its own (`IsComment`) may be put behind every line end of a text.
The scan gains the comment and a line feed, and the tokens behind are pushed down by the
lines of the comment (`exists_insertion`).  So the signatures stay the same, those behind
the comment further down (`Insertion.extract_after`).

No function loses its documentation.  A function above the comment is documented as
before, and so is one that has a comment between the inserted one and its name: both go
down alike.  For any other the inserted comment is now the nearest one.  It ends on the
line above the text behind it, and so no farther from the name than a comment before it
did (`Insertion.isDocumented_after`).

`FunctionRecord.extract_insert` says so of the functions of a text, and concludes that
no name is reported as missing documentation that was not before.
-/

namespace HeaderLint

open Text Token

/-! ## Comments -/

/-- The text of a line comment, or of a block comment that its end closes. -/
inductive IsComment : List Char → Prop where
  | line {text : List Char} (plain : '\n' ∉ text) : IsComment ('/' :: '/' :: text)
  | block {text : List Char} (inside : ¬ ['*', '/'] <:+: text) :
      IsComment ('/' :: '*' :: (text ++ ['*', '/']))

theorem blockCommentTail_closed {text : List Char} (h : ¬ ['*', '/'] <:+: text)
    (ds : List Char) : blockCommentTail (text ++ '*' :: '/' :: ds) = text ++ ['*', '/'] := by
  induction text with
  | nil => rfl
  | cons c text ih =>
    have htext : ¬ ['*', '/'] <:+: text := fun hinside =>
      h (hinside.trans (List.suffix_cons c text).isInfix)
    have hc : ¬ (c = '*' ∧ (text ++ '*' :: '/' :: ds).head? = some '/') := by
      rintro ⟨rfl, hhead⟩
      cases text with
      | nil => cases hhead
      | cons d text =>
        cases hhead
        exact h ⟨[], text, rfl⟩
    rw [List.cons_append, blockCommentTail_cons hc, ih htext]
    rfl

theorem read_lineComment {text : List Char} (plain : '\n' ∉ text) (lineStart : Bool)
    (ds : List Char) :
    Lexeme.read lineStart '/' ('/' :: (text ++ '\n' :: ds)) = ⟨.lineComment, '/' :: text⟩ := by
  have hplain : '\n' ∉ '/' :: text := List.not_mem_cons_of_ne_of_not_mem (by decide) plain
  have hrest : restOfLine ('/' :: text ++ '\n' :: ds) = '/' :: text := by
    rw [restOfLine_append_of_newline_not_mem hplain, restOfLine_eq_nil_iff.mpr (Or.inr rfl),
      List.append_nil]
  rw [← List.cons_append, (Lexeme.Reads.lineComment rfl rfl).read_eq, hrest]

theorem read_blockComment {text : List Char} (inside : ¬ ['*', '/'] <:+: text) (lineStart : Bool)
    (ds : List Char) :
    Lexeme.read lineStart '/' ('*' :: (text ++ '*' :: '/' :: ds)) =
      ⟨.blockComment, '*' :: (text ++ ['*', '/'])⟩ := by
  rw [(Lexeme.Reads.blockComment rfl rfl).read_eq, List.tail_cons, blockCommentTail_closed inside]

/-- The lexeme of a comment is the whole of it. -/
theorem IsComment.read_eq {c : Char} {cs : List Char} (h : IsComment (c :: cs)) (lineStart : Bool)
    (ds : List Char) :
    ∃ kind, (kind = .lineComment ∧ '\n' ∉ c :: cs ∨ kind = .blockComment) ∧
      Lexeme.read lineStart c (cs ++ '\n' :: ds) = ⟨kind, cs⟩ := by
  cases h with
  | line plain =>
    refine ⟨.lineComment, Or.inl ⟨rfl, ?_⟩, read_lineComment plain lineStart ds⟩
    exact List.not_mem_cons_of_ne_of_not_mem (by decide)
      (List.not_mem_cons_of_ne_of_not_mem (by decide) plain)
  | @block text inside =>
    refine ⟨.blockComment, Or.inr rfl, ?_⟩
    rw [List.cons_append, List.append_assoc]
    exact read_blockComment inside lineStart ('\n' :: ds)

/-- A lexeme in front of a line end is one token. -/
theorem scanFrom_slash {kind : TokenKind} {tail ds : List Char} {lineStart : Bool}
    (hread : Lexeme.read lineStart '/' (tail ++ '\n' :: ds) = ⟨kind, tail⟩) (p : Position) :
    scanFrom p lineStart ('/' :: (tail ++ '\n' :: ds)) =
      ⟨kind, (Lexeme.mk kind tail).text '/', p⟩ :: ⟨.newline, "\n", p.advance ('/' :: tail)⟩ ::
        scanFrom (p.advance ('/' :: tail ++ ['\n'])) true ds := by
  have hscan := scanFrom_lexeme p lineStart (tail ++ '\n' :: ds)
    (show '/' ≠ '\n' by decide) (by decide)
  rw [hread, List.drop_left, scanFrom_newline] at hscan
  rw [Position.advance_append]
  exact hscan

/-- A comment in front of a line end is one token. -/
theorem IsComment.scanFrom_append {cs : List Char} (h : IsComment cs) (p : Position)
    (lineStart : Bool) (ds : List Char) :
    ∃ t : Token, t.kind.isComment = true ∧ t.position = p ∧
      DocComment.lastLine t = (p.advance cs).line ∧
      scanFrom p lineStart (cs ++ '\n' :: ds) =
        t :: ⟨.newline, "\n", p.advance cs⟩ :: scanFrom (p.advance (cs ++ ['\n'])) true ds := by
  obtain ⟨tail, rfl⟩ : ∃ tail, cs = '/' :: tail := by
    cases h <;> exact ⟨_, rfl⟩
  obtain ⟨kind, hkind, hread⟩ := h.read_eq lineStart ds
  refine ⟨⟨kind, _, p⟩, ?_, rfl, ?_, scanFrom_slash hread p⟩
  · rcases hkind with ⟨rfl, -⟩ | rfl <;> rfl
  · rw [Position.line_advance]
    rcases hkind with ⟨rfl, hplain⟩ | rfl
    · rw [List.count_eq_zero.mpr hplain]
      rfl
    · show p.line + List.count '\n' (Lexeme.text _ '/').toList = _
      rw [Lexeme.toList_text_of_ne_directive (by simp)]

/-! ## Insertions -/

/-- The place where a token comes to stand when lines are inserted below a line. -/
def Position.pushed (line lines : Nat) (p : Position) : Position :=
  if p.line ≤ line then p else p.down lines

theorem Position.pushed_of_le {line : Nat} (lines : Nat) {p : Position} (h : p.line ≤ line) :
    p.pushed line lines = p := if_pos h

theorem Position.pushed_of_lt {line : Nat} (lines : Nat) {p : Position} (h : line < p.line) :
    p.pushed line lines = p.down lines := if_neg (Nat.not_le_of_lt h)

/-- A comment that is inserted below a line, on lines of its own. -/
structure Insertion (line lines : Nat) where
  above : List Token
  comment : Token
  newline : Token
  /-- The tokens below the line, where they stood before. -/
  below : List Token
  line_le : ∀ t ∈ above, t.line ≤ line
  endLine_le : ∀ t ∈ above, t.kind ≠ .newline → t.endLine ≤ line
  lt_line : ∀ t ∈ below, line < t.line
  isComment : comment.kind.isComment = true
  line_comment : comment.line = line + 1
  lastLine_comment : DocComment.lastLine comment = line + lines
  lines_pos : 0 < lines
  isNewline : newline.kind = .newline

namespace Insertion

variable {line lines : Nat}

/-- The tokens without the comment. -/
def before (i : Insertion line lines) : List Token := i.above ++ i.below

/-- The tokens with the comment. -/
def after (i : Insertion line lines) : List Token :=
  i.above ++ ([i.comment, i.newline] ++ i.below.map (moved (.down lines)))

/-- The tokens that carry structure are the same, those below pushed down. -/
theorem significant_after (i : Insertion line lines) :
    significant i.after = significant (i.before.map (moved (.pushed line lines))) := by
  have habove : i.above.map (moved (.pushed line lines)) = i.above := by
    refine Eq.trans (List.map_congr_left ?_) (List.map_id i.above)
    intro t ht
    rw [moved, Position.pushed_of_le lines (i.line_le t ht)]
    rfl
  have hbelow : i.below.map (moved (.pushed line lines)) = i.below.map (moved (.down lines)) := by
    refine List.map_congr_left ?_
    intro t ht
    rw [moved, moved, Position.pushed_of_lt lines (i.lt_line t ht)]
  have hcomment : significant [i.comment, i.newline] = [] := by
    have hkind : i.comment.kind.isSignificant = false := by
      have hk := i.isComment
      cases h : i.comment.kind <;> rw [h] at hk <;> first | rfl | cases hk
    rw [significant, List.filter_cons, hkind, List.filter_cons, i.isNewline]
    rfl
  rw [after, before, List.map_append, habove, hbelow, significant_append, significant_append,
    hcomment, List.nil_append, significant_append]

theorem extract_after (i : Insertion line lines) :
    Signature.extract i.after =
      (Signature.extract i.before).map (Signature.moved (.pushed line lines)) := by
  rw [← Signature.extract_map_moved, Signature.extract, i.significant_after]
  rfl

theorem lastLine_le (i : Insertion line lines) {t : Token} {place : Position}
    (h : DocComment.nearest? i.above place = some t) : DocComment.lastLine t ≤ line := by
  have hmem : t ∈ i.above := List.mem_reverse.mp (List.mem_of_find?_eq_some h)
  have hcomment := List.find?_some h
  rw [isCommentBefore, Bool.and_eq_true] at hcomment
  rw [DocComment.lastLine]
  split
  · refine i.endLine_le t hmem ?_
    intro hk
    rw [hk] at hcomment
    cases hcomment.1
  · exact i.line_le t hmem

/-- A function above the comment is documented as before. -/
theorem withDocumentation_above (i : Insertion line lines) {s : Signature} (h : s.line ≤ line) :
    s.withDocumentation i.before = s.withDocumentation i.above ∧
      s.withDocumentation i.after = s.withDocumentation i.above := by
  constructor
  · refine s.withDocumentation_append ?_
    intro t ht
    exact isCommentBefore_of_line_lt (Nat.lt_of_le_of_lt h (i.lt_line t ht))
  · refine s.withDocumentation_append ?_
    intro t ht
    rcases List.mem_append.mp ht with ht | ht
    · rcases List.mem_cons.mp ht with rfl | ht
      · refine isCommentBefore_of_line_lt (Nat.lt_of_le_of_lt h ?_)
        rw [i.line_comment]
        exact Nat.lt_succ_self line
      · rw [List.mem_singleton.mp ht, isCommentBefore, i.isNewline]
        rfl
    · obtain ⟨u, hu, rfl⟩ := List.mem_map.mp ht
      refine isCommentBefore_of_line_lt (Nat.lt_of_le_of_lt h ?_)
      exact Nat.lt_of_lt_of_le (i.lt_line u hu) (Nat.le_add_right _ _)

/-- To a place below, the nearest comment is the one that was it before if it stands
below too, and otherwise the inserted one. -/
theorem nearest?_below (i : Insertion line lines) {place : Position} (h : line < place.line) :
    DocComment.nearest? i.after (place.down lines) =
      some (((DocComment.nearest? i.below place).map (moved (.down lines))).getD i.comment) := by
  have hcomment : DocComment.nearest? [i.comment, i.newline] (place.down lines) =
      some i.comment := by
    have hbefore : i.comment.isCommentBefore (place.down lines) = true := by
      refine isCommentBefore_of_lt_line i.isComment ?_
      rw [i.line_comment, Position.line_down]
      have := i.lines_pos
      omega
    have hnewline : i.newline.isCommentBefore (place.down lines) = false := by
      rw [isCommentBefore, i.isNewline]
      rfl
    rw [DocComment.nearest?, List.reverse_cons, List.reverse_singleton, List.singleton_append,
      List.find?_cons, hnewline, List.find?_cons, hbefore]
  rw [after, DocComment.nearest?_append, DocComment.nearest?_append, DocComment.nearest?_map_down,
    hcomment]
  cases DocComment.nearest? i.below place <;> rfl

/-- A function that is documented without the comment is documented with it. -/
theorem isDocumented_after (i : Insertion line lines) (s : Signature)
    (h : (s.withDocumentation i.before).isDocumented = true) :
    ((s.moved (.pushed line lines)).withDocumentation i.after).isDocumented = true := by
  rcases Nat.lt_or_ge line s.line with hline | hline
  · rw [FunctionRecord.isDocumented_withDocumentation] at h ⊢
    rw [before, DocComment.nearest?_append] at h
    rw [Signature.moved, Position.pushed_of_lt lines hline, i.nearest?_below hline,
      Option.any_some, decide_eq_true_eq, Signature.line, Position.line_down]
    cases hbelow : DocComment.nearest? i.below s.position with
    | some t =>
      rw [hbelow, Option.some_or, Option.any_some, decide_eq_true_eq] at h
      rw [Option.map_some, Option.getD_some, DocComment.lastLine_moved_down,
        Nat.add_sub_add_right]
      exact h
    | none =>
      -- The comment before is one above the inserted one, which is nearer.
      rw [hbelow, Option.none_or] at h
      obtain ⟨t, ht, hreach⟩ := (Option.any_eq_true _ _).mp h
      rw [decide_eq_true_eq, Signature.line] at hreach
      have hend := i.lastLine_le ht
      rw [Option.map_none, Option.getD_none, i.lastLine_comment]
      omega
  · obtain ⟨hbefore, hafter⟩ := i.withDocumentation_above hline
    have hmoved : s.moved (.pushed line lines) = s := by
      rw [Signature.moved, Position.pushed_of_le lines hline]
    rw [hmoved, hafter, ← hbefore]
    exact h

end Insertion

/-- A comment between two texts is inserted below the lines of the first. -/
theorem exists_insertion {a comment : String} (ha : EndsLine a)
    (hcomment : IsComment comment.toList) (b : String) :
    ∃ i : Insertion (lineFeeds a) (lineFeeds (comment ++ "\n")),
      i.before = scan (a ++ b) ∧ i.after = scan (a ++ (comment ++ "\n") ++ b) := by
  have htext : (comment ++ "\n").toList = comment.toList ++ ['\n'] := String.toList_append
  have hlines : lineFeeds (comment ++ "\n") = comment.toList.count '\n' + 1 := by
    rw [lineFeeds, htext, List.count_append]
    rfl
  have hbehind : (Position.start.down (lineFeeds a)).advance (comment.toList ++ ['\n']) =
      (Position.start.down (lineFeeds a)).down (lineFeeds (comment ++ "\n")) := by
    rw [← htext, Position.advance_down, advance_of_getLast? (htext ▸ List.getLast?_concat),
      Position.down_comm]
  obtain ⟨t, hkind, hplace, hlast, hscan⟩ :=
    hcomment.scanFrom_append (Position.start.down (lineFeeds a)) true b.toList
  rw [hbehind, scanFrom_down (lineFeeds (comment ++ "\n"))] at hscan
  have hafter := ha.scan_append_eq (comment ++ "\n" ++ b)
  rw [← String.append_assoc, String.toList_append, htext, List.append_assoc,
    List.singleton_append, hscan] at hafter
  rw [Position.line_advance, Position.line_down_start] at hlast
  refine ⟨⟨_, t, _, _, fun u hu => (ha.line_le u hu).1, fun u hu => (ha.line_le u hu).2,
    fun u hu => lt_line_of_mem_scanFrom_down hu, hkind, ?_, ?_, ?_, rfl⟩,
    (ha.scan_append_eq b).symm, hafter.symm⟩
  · rw [line, hplace, Position.line_down_start]
  · rw [hlast, hlines]
    omega
  · rw [hlines]
    exact Nat.succ_pos _

/-! ## Functions -/

/-- A function and the one it becomes when lines are inserted: the same, or further down,
and documented if it was before. -/
structure FunctionRecord.Pushed (line lines : Nat) (f g : FunctionRecord) : Prop where
  toSignature_eq : g.toSignature = f.toSignature.moved (.pushed line lines)
  isDocumented : f.isDocumented = true → g.isDocumented = true

theorem Insertion.forall₂_pushed {line lines : Nat} (i : Insertion line lines) :
    List.Forall₂ (FunctionRecord.Pushed line lines) (FunctionRecord.extract i.before)
      (FunctionRecord.extract i.after) := by
  rw [FunctionRecord.extract, FunctionRecord.extract, i.extract_after, List.map_map,
    List.forall₂_map_left_iff, List.forall₂_map_right_iff, List.forall₂_same]
  intro s _
  exact ⟨rfl, i.isDocumented_after s⟩

section
variable {line lines : Nat} {fs gs : List FunctionRecord}

theorem map_name_of_pushed (h : List.Forall₂ (FunctionRecord.Pushed line lines) fs gs) :
    gs.map (·.name) = fs.map (·.name) := by
  induction h with
  | nil => rfl
  | cons hfg _ ih =>
    rw [List.map_cons, List.map_cons, ih, hfg.toSignature_eq]
    rfl

theorem any_isDocumented_of_pushed (h : List.Forall₂ (FunctionRecord.Pushed line lines) fs gs)
    {name : String} (hdoc : (fs.any fun f => f.name == name && f.isDocumented) = true) :
    (gs.any fun g => g.name == name && g.isDocumented) = true := by
  induction h with
  | nil => cases hdoc
  | cons hfg _ ih =>
    rw [List.any_cons, Bool.or_eq_true, Bool.and_eq_true] at hdoc ⊢
    rcases hdoc with ⟨hname, hdoc⟩ | hdoc
    · rw [hfg.toSignature_eq]
      exact Or.inl ⟨hname, hfg.isDocumented hdoc⟩
    · exact Or.inr (ih hdoc)

end

/-- Where no function loses its documentation, no name starts to miss it. -/
theorem Inventory.ReportsMissing.of_pushed {line lines : Nat} {inv inv' : Inventory}
    {config : Config} {name : String} (h : inv'.ReportsMissing config name)
    (hpushed : List.Forall₂ (FunctionRecord.Pushed line lines) inv.functions inv'.functions) :
    inv.ReportsMissing config name := by
  obtain ⟨hentry, hdoc, hname⟩ := reportsMissing_iff.mp h
  refine reportsMissing_iff.mpr ⟨hentry, ?_, ?_⟩
  · rw [← Bool.not_eq_true] at hdoc ⊢
    exact fun hbefore => hdoc (any_isDocumented_of_pushed hpushed hbefore)
  · rw [← List.mem_map] at hname ⊢
    rwa [← map_name_of_pushed hpushed]

/-- A comment inserted behind a line end leaves the functions as they are, those behind it
further down, and takes the documentation from none of them.  So no name is reported as
missing documentation that was not before. -/
theorem FunctionRecord.extract_insert (a comment b : String) (ha : EndsLine a)
    (hcomment : IsComment comment.toList) :
    List.Forall₂ (Pushed (lineFeeds a) (lineFeeds (comment ++ "\n"))) (extract (scan (a ++ b)))
      (extract (scan (a ++ (comment ++ "\n") ++ b))) ∧
    ∀ (path : Path) (config : Config) (name : String),
      (Inventory.ofSource path (a ++ (comment ++ "\n") ++ b)).ReportsMissing config name →
        (Inventory.ofSource path (a ++ b)).ReportsMissing config name := by
  obtain ⟨i, hbefore, hafter⟩ := exists_insertion ha hcomment b
  have hpushed := i.forall₂_pushed
  rw [hbefore, hafter] at hpushed
  refine ⟨hpushed, ?_⟩
  intro path config name h
  exact h.of_pushed hpushed

/-- A comment of two lines comes between a comment and a function. -/
theorem FunctionRecord.extract_insert_between :
    EndsLine "// A\n" ∧ IsComment "/* B\n   C */".toList ∧
      List.Forall₂ (Pushed (lineFeeds "// A\n") (lineFeeds ("/* B\n   C */" ++ "\n")))
        (extract (scan ("// A\n" ++ "int f(void);")))
        (extract (scan ("// A\n" ++ ("/* B\n   C */" ++ "\n") ++ "int f(void);"))) := by
  have ha : EndsLine "// A\n" := by decide +kernel
  have hcomment : IsComment "/* B\n   C */".toList := by
    have hinside : ¬ ['*', '/'] <:+: [' ', 'B', '\n', ' ', ' ', ' ', 'C', ' '] := by decide
    exact IsComment.block hinside
  exact ⟨ha, hcomment, (extract_insert "// A\n" _ "int f(void);" ha hcomment).1⟩

end HeaderLint
