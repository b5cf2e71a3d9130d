import Mathlib.Data.List.Chain
import HeaderLint.Proofs.DocComment.InReach
import HeaderLint.Proofs.DocComment.Style

/-!
# The run that ends with a comment

The comment found before a place is told by the last comment that starts before it, and by the
tokens before that (`DocComment.find?_scan`).  A block comment stands for itself.  With a line
comment comes the longest run of line comments that ends with it: on consecutive lines, with
nothing but line ends between them.

All such runs are ends of the one that the walk upwards finds, since a token that stops the walk
stands in the way of every longer run (`DocComment.isPrefix_runAbove`).  A line comment holds no
line feed, so the text of a run has one line feed for each step from its first line to its last.
-/

namespace HeaderLint

open Text

namespace Token

/-- The tokens but for the line ends. -/
def withoutLineEnds (ts : List Token) : List Token := ts.filter fun t => t.kind != .newline

theorem withoutLineEnds_cons_newline {t : Token} (h : t.kind = .newline) (ts : List Token) :
    withoutLineEnds (t :: ts) = withoutLineEnds ts :=
  List.filter_cons_of_neg (by rw [h]; decide)

theorem withoutLineEnds_cons {t : Token} (h : t.kind ≠ .newline) (ts : List Token) :
    withoutLineEnds (t :: ts) = t :: withoutLineEnds ts :=
  List.filter_cons_of_pos (bne_iff_ne.mpr h)

/-- Line comments on consecutive lines that end with the token behind some tokens, with nothing
but line ends between them. -/
structure IsRunInto (earlier : List Token) (last : Token) (run : List Token) : Prop
    extends IsRun run where
  between : ∃ front stretch, earlier = front ++ stretch ∧ run = withoutLineEnds stretch ++ [last]

theorem IsRunInto.mem {earlier run : List Token} {last t : Token}
    (h : IsRunInto earlier last run) (ht : t ∈ run) : t ∈ earlier ++ [last] := by
  obtain ⟨front, stretch, rfl, rfl⟩ := h.between
  rcases List.mem_append.mp ht with ht | ht
  · exact List.mem_append_left _ (List.mem_append_right _ (List.mem_of_mem_filter ht))
  · exact List.mem_append_right _ ht

/-- From the first line of a run to the last it is a step for each further comment. -/
theorem line_concat_of_isChain {ts : List Token} {last : Token}
    (h : (ts ++ [last]).IsChain fun t u => t.line + 1 = u.line) :
    last.line = ((ts ++ [last]).head?.getD last).line + ts.length := by
  induction ts with
  | nil => rfl
  | cons t ts ih =>
    cases ts with
    | nil => exact (List.isChain_cons_cons.mp h).1.symm
    | cons u ts =>
      obtain ⟨hnext, hrest⟩ := List.isChain_cons_cons.mp h
      have hlast : last.line = u.line + (u :: ts).length := ih hrest
      change last.line = t.line + ((u :: ts).length + 1)
      omega

/-- A text of several lines without line feeds has one between any two in a row. -/
theorem count_intercalate_concat {ts : List Token} {last : Token}
    (h : ∀ t ∈ ts ++ [last], '\n' ∉ t.text.toList) :
    ("\n".intercalate ((ts ++ [last]).map text)).toList.count '\n' = ts.length := by
  have hnewline : "\n".toList = ['\n'] := rfl
  have hcount : ∀ t ∈ ts ++ [last], t.text.toList.count '\n' = 0 := fun t ht =>
    List.count_eq_zero.mpr (h t ht)
  rw [String.toList_intercalate, hnewline, List.map_map]
  clear h
  induction ts with
  | nil =>
    rw [List.nil_append, List.map_singleton, List.intercalate_singleton]
    exact hcount last List.mem_cons_self
  | cons t ts ih =>
    obtain ⟨ht, hts⟩ := List.forall_mem_cons.mp hcount
    rw [List.cons_append, List.map_cons, List.intercalate_cons_of_ne_nil (by simp),
      List.count_append, List.count_append, ih hts, Function.comp_apply, ht, Nat.add_assoc]
    exact (Nat.zero_add (1 + ts.length)).trans (Nat.add_comm 1 ts.length)

end Token

namespace DocComment

open Token

/-! ## The walk upwards -/

theorem exists_stretch_runAbove (line : Nat) (above : List Token) :
    ∃ stretch further, above = stretch ++ further ∧
      runAbove line above = withoutLineEnds stretch := by
  fun_induction runAbove line above with
  | case1 line => exact ⟨[], [], rfl, rfl⟩
  | case2 line t above h ih =>
    obtain ⟨stretch, further, rfl, hrun⟩ := ih
    exact ⟨t :: stretch, further, rfl,
      hrun.trans (withoutLineEnds_cons_newline (beq_iff_eq.mp h) stretch).symm⟩
  | case3 line t above h _ ih =>
    obtain ⟨stretch, further, rfl, hrun⟩ := ih
    refine ⟨t :: stretch, further, rfl, ?_⟩
    rw [hrun, withoutLineEnds_cons (mt beq_iff_eq.mpr h)]
  | case4 line t above => exact ⟨[], t :: above, rfl, rfl⟩

theorem isChain_runAbove (last : Token) (above : List Token) :
    (last :: runAbove last.line above).IsChain fun t u => u.line + 1 = t.line := by
  induction above generalizing last with
  | nil => exact .singleton last
  | cons t above ih =>
    rw [runAbove]
    split
    · exact ih last
    · split
      · next h =>
        rw [Bool.and_eq_true, beq_iff_eq, beq_iff_eq] at h
        exact .cons_cons h.2 (ih t)
      · exact .singleton last

/-- A run that goes back over some of the tokens is no longer than the one that is found. -/
theorem isPrefix_runAbove {last : Token} {stretch above : List Token}
    (hstretch : stretch <+: above) (hkind : ∀ t ∈ withoutLineEnds stretch, t.kind = .lineComment)
    (hchain : (last :: withoutLineEnds stretch).IsChain fun t u => u.line + 1 = t.line) :
    withoutLineEnds stretch <+: runAbove last.line above := by
  induction above generalizing last stretch with
  | nil =>
    rw [List.prefix_nil.mp hstretch]
    exact List.nil_prefix
  | cons t above ih =>
    cases stretch with
    | nil => exact List.nil_prefix
    | cons u stretch =>
      obtain ⟨rfl, hrest⟩ := List.cons_prefix_cons.mp hstretch
      by_cases hnewline : u.kind = .newline
      · rw [withoutLineEnds_cons_newline hnewline] at hkind hchain ⊢
        rw [runAbove, if_pos (beq_iff_eq.mpr hnewline)]
        exact ih hrest hkind hchain
      · rw [withoutLineEnds_cons hnewline] at hkind hchain ⊢
        obtain ⟨hcomment, hkind⟩ := List.forall_mem_cons.mp hkind
        obtain ⟨hline, hchain⟩ := List.isChain_cons_cons.mp hchain
        rw [runAbove_lineComment hcomment hline]
        exact List.cons_prefix_cons.mpr ⟨rfl, ih hrest hkind hchain⟩

/-! ## The longest run -/

/-- The line comments that the walk finds, from the first one to the last. -/
def runInto (earlier : List Token) (last : Token) : List Token :=
  (runAbove last.line earlier.reverse).reverse ++ [last]

variable {earlier : List Token} {last : Token}

theorem isRunInto_runInto (hlast : last.kind = .lineComment) :
    IsRunInto earlier last (runInto earlier last) where
  kind := by
    intro t ht
    rcases List.mem_append.mp ht with ht | ht
    · exact kind_of_mem_runAbove t (List.mem_reverse.mp ht)
    · rw [List.mem_singleton.mp ht, hlast]
  consecutive := by
    rw [runInto, ← List.reverse_cons, List.isChain_reverse]
    exact isChain_runAbove last earlier.reverse
  between := by
    obtain ⟨stretch, further, hcut, hrun⟩ := exists_stretch_runAbove last.line earlier.reverse
    refine ⟨further.reverse, stretch.reverse, ?_, ?_⟩
    · rw [← List.reverse_append, ← hcut, List.reverse_reverse]
    · rw [runInto, hrun, withoutLineEnds, withoutLineEnds, List.filter_reverse]

/-- Every run into a comment is an end of the one that the walk finds. -/
theorem isSuffix_runInto {run : List Token} (h : IsRunInto earlier last run) :
    run <:+ runInto earlier last := by
  obtain ⟨front, stretch, rfl, rfl⟩ := h.between
  -- The walk goes upwards, so the run is read from its last comment to its first.
  have hreverse : withoutLineEnds stretch.reverse = (withoutLineEnds stretch).reverse :=
    List.filter_reverse
  have hchain := h.consecutive
  rw [← List.isChain_reverse, List.reverse_concat, ← hreverse] at hchain
  have hfront : withoutLineEnds stretch.reverse <+:
      runAbove last.line (front ++ stretch).reverse := by
    refine isPrefix_runAbove ?_ ?_ hchain
    · rw [List.reverse_append]
      exact List.prefix_append _ _
    · rw [hreverse]
      exact fun t ht => h.kind t (List.mem_append_left _ (List.mem_reverse.mp ht))
  rw [hreverse, ← List.reverse_reverse (runAbove _ _), List.reverse_prefix] at hfront
  exact (List.suffix_append_inj_of_length_eq rfl).mpr ⟨hfront, rfl⟩

/-! ## What is found -/

/-- A comment ends with a comment token.  It ends on the line where the token ends, and each line
feed of its text takes it one line further.  A block comment is the whole of it, and a line comment
is the last one of the longest run. -/
structure EndsWith (d : DocComment) (earlier : List Token) (last : Token) : Prop where
  endLine_eq : d.endLine = last.endLine
  endLine_eq_add : d.endLine = d.startLine + d.text.toList.count '\n'
  blockComment : last.kind = .blockComment → d.text = last.text
  lineComment : last.kind = .lineComment →
    ∃ run, IsRunInto earlier last run ∧ (∀ other, IsRunInto earlier last other → other <:+ run) ∧
      d.text = "\n".intercalate (run.map Token.text)

theorem endingWith_blockComment (h : last.kind = .blockComment) :
    endingWith last earlier.reverse = ⟨last.text, last.line, last.endLine⟩ :=
  if_pos (beq_iff_eq.mpr h)

theorem endingWith_lineComment (h : last.kind = .lineComment) :
    endingWith last earlier.reverse =
      ⟨"\n".intercalate ((runInto earlier last).map Token.text),
        ((runInto earlier last).head?.getD last).line, last.line⟩ := by
  rw [endingWith, if_neg (by rw [h]; decide), List.reverse_cons]
  rfl

theorem endsWith_endingWith (hcomment : last.kind.isComment = true)
    (hplain : ∀ t ∈ earlier ++ [last], t.kind = .lineComment → '\n' ∉ t.text.toList) :
    EndsWith (endingWith last earlier.reverse) earlier last := by
  rcases TokenKind.isComment_iff.mp hcomment with hkind | hkind
  · have hrun : IsRunInto earlier last (runInto earlier last) := isRunInto_runInto hkind
    have hlines : ∀ t ∈ runInto earlier last, '\n' ∉ t.text.toList := fun t ht =>
      hplain t (hrun.mem ht) (hrun.kind t ht)
    rw [endingWith_lineComment hkind]
    constructor
    · have hlast : '\n' ∉ last.text.toList := hplain last (by simp) hkind
      change last.line = last.line + last.text.toList.count '\n'
      rw [List.count_eq_zero.mpr hlast, Nat.add_zero]
    · rw [runInto, count_intercalate_concat hlines]
      exact line_concat_of_isChain hrun.consecutive
    · intro hblock
      rw [hkind] at hblock
      cases hblock
    · exact fun _ => ⟨runInto earlier last, hrun, fun _ => isSuffix_runInto, rfl⟩
  · rw [endingWith_blockComment hkind]
    refine ⟨rfl, rfl, fun _ => rfl, ?_⟩
    intro hline
    rw [hkind] at hline
    cases hline

/-- In the tokens of a scan a comment is found if some comment starts before the place, and what
is found ends with the last of these. -/
theorem find?_scan (source : String) (place : Position) :
    (find? (scan source) place = none ↔
      ∀ t ∈ scan source, ¬ (t.kind.isComment = true ∧ t.position.before place = true)) ∧
    ∀ earlier last later, scan source = earlier ++ last :: later →
      last.kind.isComment = true → last.position.before place = true →
      (∀ t ∈ later, ¬ (t.kind.isComment = true ∧ t.position.before place = true)) →
      ∃ d, find? (scan source) place = some d ∧ d.EndsWith earlier last := by
  simp only [← Bool.and_eq_true, Bool.not_eq_true]
  refine ⟨find?_eq_none_iff, ?_⟩
  intro earlier last later hcut hcomment hbefore hlater
  have hlast : last.isCommentBefore place = true := Bool.and_eq_true_iff.mpr ⟨hcomment, hbefore⟩
  have hfind : find? (scan source) place = some (endingWith last earlier.reverse) := by
    rw [hcut, find?_append_last hlater hlast]
  refine ⟨_, hfind, endsWith_endingWith hcomment ?_⟩
  intro t ht
  have hscan : t ∈ scan source := by
    rw [hcut, List.append_cons]
    exact List.mem_append_left later ht
  exact newline_not_mem_of_lineComment hscan

/-- The first comment of the run stands behind a declaration, the second one is indented. -/
theorem find?_scan_trailing :
    (scan "int x; // A\n\t// B\n// C\n\nint f(void);" =
      (scan "int x; // A\n\t// B\n// C\n\nint f(void);").take 7 ++
        ⟨.lineComment, "// C", ⟨3, 1⟩⟩ ::
          (scan "int x; // A\n\t// B\n// C\n\nint f(void);").drop 8 ∧
      TokenKind.isComment .lineComment = true ∧ Position.before ⟨3, 1⟩ ⟨5, 5⟩ = true ∧
      ∀ t ∈ (scan "int x; // A\n\t// B\n// C\n\nint f(void);").drop 8,
        ¬ (t.kind.isComment = true ∧ t.position.before ⟨5, 5⟩ = true)) ∧
    ∃ d, find? (scan "int x; // A\n\t// B\n// C\n\nint f(void);") ⟨5, 5⟩ = some d ∧
      d.EndsWith ((scan "int x; // A\n\t// B\n// C\n\nint f(void);").take 7)
        ⟨.lineComment, "// C", ⟨3, 1⟩⟩ := by
  have h : scan "int x; // A\n\t// B\n// C\n\nint f(void);" =
      (scan "int x; // A\n\t// B\n// C\n\nint f(void);").take 7 ++
        ⟨.lineComment, "// C", ⟨3, 1⟩⟩ ::
          (scan "int x; // A\n\t// B\n// C\n\nint f(void);").drop 8 := by decide +kernel
  have hlater : ∀ t ∈ (scan "int x; // A\n\t// B\n// C\n\nint f(void);").drop 8,
      ¬ (t.kind.isComment = true ∧ t.position.before ⟨5, 5⟩ = true) := by decide +kernel
  exact ⟨⟨h, rfl, rfl, hlater⟩, (find?_scan _ _).2 _ _ _ h rfl rfl hlater⟩

end DocComment

end HeaderLint
