import Mathlib.Data.List.Chain
import Mathlib.Data.List.Induction
import HeaderLint.Proofs.DocComment.Heading
import HeaderLint.Proofs.DocComment.Inserted
import HeaderLint.Proofs.DocComment.Returns
import HeaderLint.Proofs.Text.Occurrence

/-!
# Two styles of comments

The same content can stand in a run of line comments (`lineStyle`), or in a block comment with a
star in front of each line (`blockStyle`).  The scan reads the first as a token for each line and
the second as one token, and the documentation puts the run together again.  Without delimiters
and gutter the lines are the same: those of the content, trimmed, between two empty ones in the
block (`DocLine.ofCommentLine_slashed`, `DocLine.ofCommentLine_starred`).

So a function below the comment has the same documentation for a check of the format, in whichever
style it is written (`FunctionRecord.extract_styles`).  A line of content may hold anything but a
line feed and the end of a block comment, and it may not start with a star: the gutter is dropped
in both styles, and a line comment has none (`IsContent`).
-/

namespace HeaderLint

open Text Token

/-! ## Content -/

/-- A line of content that comments of both styles can hold. -/
structure IsContent (line : List Char) : Prop where
  /-- The content stays on its line. -/
  plain : '\n' ∉ line
  /-- The content does not end a block comment. -/
  inside : ¬ ['*', '/'] <:+: line
  /-- The first character that is not blank is no star. -/
  noStar : (trimStart line).head? ≠ some '*'

/-- The content in a line comment. -/
def slashed (line : List Char) : List Char := '/' :: '/' :: ' ' :: line

/-- The content in a line of a block comment, behind the star of the gutter. -/
def starred (line : List Char) : List Char := ' ' :: '*' :: ' ' :: line

/-- The lines of content as line comments. -/
def lineStyle (content : List (List Char)) : List (List Char) := content.map slashed

/-- The lines of content as a block comment, with delimiters on lines of their own. -/
def blockStyle (content : List (List Char)) : List (List Char) :=
  ['/', '*'] :: content.map starred ++ [[' ', '*', '/']]

/-! ## The lines without delimiters and gutter -/

/-- A text behind a space is blank, or starts with the space when its end is trimmed. -/
theorem trimEnd_cons_space (line : List Char) :
    trimEnd (' ' :: line) = [] ∨ ∃ more, trimEnd (' ' :: line) = ' ' :: more := by
  rcases List.prefix_cons_iff.mp (trimEnd_isPrefix (' ' :: line)) with h | ⟨more, h, -⟩
  · exact .inl h
  · exact .inr ⟨more, h⟩

/-- Behind the star of the gutter the content still does not end a block comment. -/
theorem IsContent.behindStar {line : List Char} (h : IsContent line) :
    ¬ ['*', '/'] <:+: '*' :: ' ' :: line := by
  have hstar : ¬ ['*', '/'] <:+: ['*'] := by decide
  exact not_infix_append_cons (by decide) hstar h.inside

namespace DocLine

theorem dropCloser_eq_self {line : List Char} (h : ¬ ['*', '/'] <:+: line) :
    dropCloser line = line := by
  rw [dropCloser]
  split
  · next rest hrest =>
    rw [List.reverse_eq_iff] at hrest
    rw [hrest, List.reverse_cons, List.reverse_cons, List.append_assoc] at h
    exact absurd (List.infix_append' rest.reverse _ []) (by simpa using h)
  · rfl

theorem dropGutter_eq_self {line : List Char} (h : line.head? ≠ some '*') :
    dropGutter line = line := by
  rw [dropGutter.eq_def]
  split
  · exact absurd rfl h
  · rfl

variable {line : List Char}

/-- Behind the two slashes of a line comment the content is left. -/
theorem ofCommentLine_slashed (h : IsContent line) : ofCommentLine (slashed line) = trim line := by
  have htrim : trim (slashed line) = '/' :: '/' :: trimEnd (' ' :: line) := by
    rw [slashed, trim_cons (by decide), trimEnd_cons (by decide)]
  have hopener : dropOpener ('/' :: '/' :: trimEnd (' ' :: line)) = trimEnd (' ' :: line) := by
    rcases trimEnd_cons_space line with hrest | ⟨more, hrest⟩ <;> rw [hrest] <;> rfl
  have hcloser : dropCloser (trimEnd (' ' :: line)) = trimEnd (' ' :: line) := by
    have hprefix : trimEnd (' ' :: line) <:+: '*' :: ' ' :: line :=
      (trimEnd_isPrefix _).isInfix.trans (List.suffix_cons '*' _).isInfix
    exact dropCloser_eq_self fun hclose => h.behindStar (hclose.trans hprefix)
  have hgutter : dropGutter (trim line) = trim line := by
    refine dropGutter_eq_self fun hstar => h.noStar ?_
    obtain ⟨rest, hrest⟩ := trimEnd_isPrefix (trimStart line)
    rw [← hrest, List.head?_append, ← trim, hstar]
    rfl
  rw [ofCommentLine, htrim, hopener, trimEnd_trimEnd, hcloser, trim_trimEnd,
    trim_cons_of_blank (by decide), hgutter, trim_trim]

/-- Behind the star of the gutter the content is left. -/
theorem ofCommentLine_starred (h : IsContent line) : ofCommentLine (starred line) = trim line := by
  have htrim : trim (starred line) = '*' :: trimEnd (' ' :: line) := by
    rw [starred, trim_cons_of_blank (by decide), trim_cons (by decide)]
  have hopener : dropOpener ('*' :: trimEnd (' ' :: line)) = '*' :: trimEnd (' ' :: line) := rfl
  have hcloser : dropCloser ('*' :: trimEnd (' ' :: line)) = '*' :: trimEnd (' ' :: line) := by
    have hprefix : '*' :: trimEnd (' ' :: line) <:+: '*' :: ' ' :: line :=
      ((List.prefix_cons_inj '*').mpr (trimEnd_isPrefix _)).isInfix
    exact dropCloser_eq_self fun hclose => h.behindStar (hclose.trans hprefix)
  have hgutter : dropGutter ('*' :: trimEnd (' ' :: line)) = trimEnd (' ' :: line) := by
    rcases trimEnd_cons_space line with hrest | ⟨more, hrest⟩ <;> rw [hrest] <;> rfl
  rw [ofCommentLine, htrim, hopener, trimEnd_cons (by decide), trimEnd_trimEnd, hcloser,
    trim_cons (by decide), trimEnd_trimEnd, hgutter, trim_trimEnd, trim_cons_of_blank (by decide)]

end DocLine

/-! ## Lines with their ends -/

theorem Position.advance_line {text : List Char} (h : '\n' ∉ text) (above : Nat) :
    (start.down above).advance (text ++ ['\n']) = start.down (above + 1) := by
  rw [advance_append, advance_of_newline_not_mem _ h]
  rfl

theorem Position.advance_ended {texts : List (List Char)} (h : ∀ text ∈ texts, '\n' ∉ text)
    (above : Nat) :
    (start.down above).advance (ended texts) = start.down (above + texts.length) := by
  induction texts generalizing above with
  | nil => rfl
  | cons text texts ih =>
    obtain ⟨htext, htexts⟩ := List.forall_mem_cons.mp h
    rw [ended_cons, advance_append, advance_line htext, ih htexts, List.length_cons, Nat.add_assoc,
      Nat.add_comm 1]

/-! ## Runs of line comments -/

namespace Token

/-- The line end directly behind a token. -/
def lineEnd (t : Token) : Token := ⟨.newline, "\n", t.position.advance t.text.toList⟩

/-- Tokens with a line end behind each. -/
def withLineEnds (ts : List Token) : List Token := ts.flatMap fun t => [t, t.lineEnd]

theorem withLineEnds_cons (t : Token) (ts : List Token) :
    withLineEnds (t :: ts) = t :: t.lineEnd :: withLineEnds ts := rfl

theorem reverse_withLineEnds_concat (ts : List Token) (t : Token) :
    (withLineEnds (ts ++ [t])).reverse = t.lineEnd :: t :: (withLineEnds ts).reverse := by
  rw [withLineEnds, List.flatMap_append, List.flatMap_singleton, List.reverse_append]
  rfl

/-- Line comments on consecutive lines. -/
structure IsRun (ts : List Token) : Prop where
  kind : ∀ t ∈ ts, t.kind = .lineComment
  consecutive : ts.IsChain fun t u => t.line + 1 = u.line

theorem significant_withLineEnds {ts : List Token} (h : ∀ t ∈ ts, t.kind.isComment = true) :
    significant (withLineEnds ts) = [] := by
  rw [significant, List.filter_eq_nil_iff]
  intro u hu
  obtain ⟨t, ht, hu⟩ := List.mem_flatMap.mp hu
  rcases List.mem_cons.mp hu with rfl | hu
  · rcases TokenKind.isComment_iff.mp (h u ht) with hkind | hkind <;> rw [hkind] <;> decide
  · rw [List.mem_singleton.mp hu]
    exact Bool.false_ne_true

end Token

namespace DocComment

theorem runAbove_lineEnd (line : Nat) (t : Token) (ts : List Token) :
    runAbove line (t.lineEnd :: ts) = runAbove line ts := by
  rw [runAbove, if_pos (show (t.lineEnd.kind == .newline) = true from rfl)]

theorem runAbove_lineComment {line : Nat} {t : Token} (hkind : t.kind = .lineComment)
    (hline : t.line + 1 = line) (ts : List Token) :
    runAbove line (t :: ts) = t :: runAbove t.line ts := by
  rw [runAbove, hkind, hline, if_neg (by decide), if_pos (by simp)]

/-- Going back over a run finds all of it. -/
theorem runAbove_of_isRun {ts : List Token} {t : Token} (h : IsRun (ts ++ [t])) :
    runAbove t.line (withLineEnds ts).reverse = ts.reverse := by
  induction ts using List.reverseRecOn generalizing t with
  | nil => rfl
  | append_singleton ts u ih =>
    have hchain := h.consecutive
    rw [List.append_assoc, List.singleton_append, List.isChain_append_cons_cons] at hchain
    have hrun : IsRun (ts ++ [u]) :=
      ⟨fun v hv => h.kind v (List.mem_append_left _ hv), hchain.1⟩
    have hkind : u.kind = .lineComment := hrun.kind u (List.mem_append_right _ List.mem_cons_self)
    rw [reverse_withLineEnds_concat, runAbove_lineEnd, runAbove_lineComment hkind hchain.2.1,
      ih hrun, List.reverse_concat]

/-- To a place below, the last of some comments ends the comment. -/
theorem find?_withLineEnds_concat (ts : List Token) {last : Token}
    (hcomment : last.kind.isComment = true) {place : Position} (hplace : last.line < place.line) :
    find? (withLineEnds (ts ++ [last])) place =
      some (endingWith last (withLineEnds ts).reverse) := by
  have hlineEnd : ∀ t ∈ [last.lineEnd], t.isCommentBefore place = false :=
    List.forall_mem_singleton.mpr rfl
  rw [withLineEnds, List.flatMap_append]
  exact find?_append_last hlineEnd (isCommentBefore_of_lt_line hcomment hplace)

/-- To a place below a run the comment is the run. -/
theorem exists_comment_of_isRun {ts : List Token} (h : IsRun ts) {last : Token}
    (hlast : ts.getLast? = some last) (htexts : ∀ t ∈ ts, IsLine t.text.toList) {place : Position}
    (hplace : last.line < place.line) :
    ∃ d, find? (withLineEnds ts) place = some d ∧ d.endLine = last.line ∧
      DocLine.ofComment d.text = ts.map docLine := by
  obtain ⟨ts, rfl⟩ := List.getLast?_eq_some_iff.mp hlast
  have hkind : last.kind = .lineComment := h.kind last (List.mem_append_right _ List.mem_cons_self)
  refine ⟨_, find?_withLineEnds_concat ts (by rw [hkind]; rfl) hplace, ?_, ?_⟩
  · rw [endLine_endingWith, lastLine, hkind]
    rfl
  · rw [endingWith, hkind, if_neg (by decide), runAbove_of_isRun h, List.reverse_cons,
      List.reverse_reverse, ofComment_intercalate htexts]

end DocComment

/-! ## The run of a content -/

/-- The tokens of the content as line comments, below some lines. -/
def runBelow (above : Nat) : List (List Char) → List Token
  | [] => []
  | line :: content =>
    ⟨.lineComment, .ofList (slashed line), .down above .start⟩ :: runBelow (above + 1) content

theorem map_line_runBelow (above : Nat) (content : List (List Char)) :
    (runBelow above content).map Token.line = List.range' (above + 1) content.length := by
  induction content generalizing above with
  | nil => rfl
  | cons line content ih =>
    rw [runBelow, List.map_cons, ih, List.length_cons, List.range'_succ, Token.line,
      Position.line_down_start]

/-- The last token of the run is on the last line of the content. -/
theorem exists_last_runBelow {content : List (List Char)} (hne : content ≠ []) :
    ∃ last, (runBelow 0 content).getLast? = some last ∧ last.line = content.length := by
  have hlines : ((runBelow 0 content).map Token.line).getLast? = some content.length := by
    rw [map_line_runBelow, List.getLast?_range', if_neg (by simpa using hne)]
    simp
  rwa [List.getLast?_map, Option.map_eq_some_iff] at hlines

theorem map_text_runBelow (above : Nat) (content : List (List Char)) :
    (runBelow above content).map (fun t => t.text.toList) = lineStyle content := by
  induction content generalizing above with
  | nil => rfl
  | cons line content ih =>
    rw [runBelow, List.map_cons, ih, String.toList_ofList]
    rfl

theorem isRun_runBelow (above : Nat) (content : List (List Char)) :
    IsRun (runBelow above content) := by
  refine ⟨?_, ?_⟩
  · induction content generalizing above with
    | nil => exact List.forall_mem_nil _
    | cons line content ih => exact List.forall_mem_cons.mpr ⟨rfl, ih (above + 1)⟩
  · have hchain := List.isChain_range' (above + 1) content.length 1
    rw [← map_line_runBelow, List.isChain_map] at hchain
    exact hchain.imp fun t u => Eq.symm

section
variable {content : List (List Char)} (h : ∀ line ∈ content, IsContent line)
include h

theorem newline_not_mem_lineStyle : ∀ text ∈ lineStyle content, '\n' ∉ text := by
  refine List.forall_mem_map.mpr fun line hline => ?_
  have hplain := (h line hline).plain
  simp [slashed, hplain]

theorem isLine_of_mem_runBelow {above : Nat} :
    ∀ t ∈ runBelow above content, IsLine t.text.toList := by
  intro t ht
  have htext : t.text.toList ∈ lineStyle content := by
    rw [← map_text_runBelow above]
    exact List.mem_map_of_mem ht
  obtain ⟨line, -, hline⟩ := List.mem_map.mp htext
  exact ⟨by rw [← hline]; exact List.cons_ne_nil _ _, newline_not_mem_lineStyle h _ htext⟩

/-- The documentation of the run is the content, trimmed. -/
theorem map_docLine_runBelow (above : Nat) :
    (runBelow above content).map docLine = content.map trim := by
  have hlines : (runBelow above content).map docLine =
      (lineStyle content).map DocLine.ofCommentLine := by
    rw [← map_text_runBelow above, List.map_map]
    exact List.map_congr_left fun t _ => by rw [Function.comp_apply, docLine]
  rw [hlines, lineStyle, List.map_map]
  refine List.map_congr_left fun line hline => ?_
  rw [Function.comp_apply, DocLine.ofCommentLine_slashed (h line hline)]

/-- The scan of line comments is their run, with the line ends. -/
theorem scanFrom_lineStyle (above : Nat) (ds : List Char) :
    scanFrom (.down above .start) true (ended (lineStyle content) ++ ds) =
      withLineEnds (runBelow above content) ++
        scanFrom (.down (above + content.length) .start) true ds := by
  induction content generalizing above with
  | nil => rfl
  | cons line content ih =>
    obtain ⟨hline, hcontent⟩ := List.forall_mem_cons.mp h
    have hplain : '\n' ∉ ' ' :: line :=
      List.not_mem_cons_of_ne_of_not_mem (by decide) hline.plain
    have hread : Lexeme.read true '/'
        ('/' :: ' ' :: line ++ '\n' :: (ended (lineStyle content) ++ ds)) =
          ⟨.lineComment, '/' :: ' ' :: line⟩ := read_lineComment hplain true _
    have hslashed : '\n' ∉ slashed line :=
      newline_not_mem_lineStyle h _ List.mem_cons_self
    have hscan := scanFrom_slash hread (.down above .start)
    rw [← List.cons_append, ← slashed, Position.advance_line hslashed, ih hcontent] at hscan
    rw [lineStyle, List.map_cons, ← lineStyle, ended_cons, List.append_assoc, List.append_assoc,
      List.singleton_append, List.length_cons, Nat.add_comm content.length 1, ← Nat.add_assoc,
      runBelow, withLineEnds_cons, lineEnd, String.toList_ofList]
    exact hscan

/-- The run as the comment above a text. -/
def lineHeading (hne : content ≠ []) : Heading content.length (content.map trim) where
  tokens := withLineEnds (runBelow 0 content)
  significant_tokens :=
    significant_withLineEnds fun t ht => by rw [(isRun_runBelow 0 content).kind t ht]; rfl
  exists_comment := by
    intro place hplace
    obtain ⟨last, hlast, hline⟩ := exists_last_runBelow hne
    obtain ⟨d, hfind, hend, hdoc⟩ := DocComment.exists_comment_of_isRun (isRun_runBelow 0 content)
      hlast (isLine_of_mem_runBelow h) (hline.symm ▸ hplace)
    exact ⟨d, hfind, hend.trans hline, hdoc.trans (map_docLine_runBelow h 0)⟩

theorem scan_lineStyle (hne : content ≠ []) (source : String) :
    scan (.ofList (ended (lineStyle content)) ++ source) =
      (lineHeading h hne).tokens ++ (scan source).map (moved (.down content.length)) := by
  have hscan := scanFrom_lineStyle h 0 source.toList
  rw [Nat.zero_add, scanFrom_down content.length .start] at hscan
  rw [scan, String.toList_append, String.toList_ofList]
  exact hscan

end

/-! ## The block of a content -/

/-- What stands between the delimiters of the block. -/
def blockInside (content : List (List Char)) : List Char :=
  '\n' :: (ended (content.map starred) ++ [' '])

/-- The token of the block. -/
def blockToken (content : List (List Char)) : Token :=
  ⟨.blockComment, .ofList ('/' :: '*' :: (blockInside content ++ ['*', '/'])), .start⟩

/-- The block is lines with their ends, but for the last one. -/
theorem toList_text_blockToken (content : List (List Char)) :
    (blockToken content).text.toList =
      ended (['/', '*'] :: content.map starred) ++ [' ', '*', '/'] := by
  rw [blockToken, String.toList_ofList, blockInside, ended_cons]
  simp

theorem ended_blockStyle (content : List (List Char)) :
    ended (blockStyle content) = (blockToken content).text.toList ++ ['\n'] := by
  rw [blockStyle, ended_append, toList_text_blockToken, List.append_assoc]
  rfl

section
variable {content : List (List Char)} (h : ∀ line ∈ content, IsContent line)
include h

/-- The content does not end the block. -/
theorem not_infix_blockInside : ¬ ['*', '/'] <:+: blockInside content := by
  have hends : ¬ ['*', '/'] <:+: ended (content.map starred) ++ [' '] := by
    induction content with
    | nil => decide
    | cons line content ih =>
      obtain ⟨hline, hcontent⟩ := List.forall_mem_cons.mp h
      rw [List.map_cons, ended_cons, List.append_assoc, List.append_assoc, List.singleton_append]
      have hstarred : ¬ ['*', '/'] <:+: starred line :=
        not_infix_append_cons (a := []) (by decide) (by decide) hline.behindStar
      exact not_infix_append_cons (by decide) hstarred (ih hcontent)
  exact not_infix_append_cons (a := []) (by decide) (by decide) hends

theorem newline_not_mem_blockStyle : ∀ text ∈ blockStyle content, '\n' ∉ text := by
  refine List.forall_mem_append.mpr ⟨List.forall_mem_cons.mpr ⟨by decide, ?_⟩, by decide⟩
  refine List.forall_mem_map.mpr fun line hline => ?_
  have hplain := (h line hline).plain
  simp [starred, hplain]

/-- The documentation of the block is the content, trimmed, between two empty lines. -/
theorem ofComment_blockToken :
    DocLine.ofComment (blockToken content).text = [] :: content.map trim ++ [[]] := by
  have hlast : IsLine [' ', '*', '/'] := ⟨by decide, by decide⟩
  have hcontent : content.map (DocLine.ofCommentLine ∘ starred) = content.map trim := by
    refine List.map_congr_left fun line hline => ?_
    rw [Function.comp_apply, DocLine.ofCommentLine_starred (h line hline)]
  have hopener : DocLine.ofCommentLine ['/', '*'] = [] := by decide +kernel
  have hcloser : DocLine.ofCommentLine [' ', '*', '/'] = [] := by decide +kernel
  have hlines : ∀ text ∈ ['/', '*'] :: content.map starred, '\n' ∉ text :=
    fun text htext => newline_not_mem_blockStyle h text (List.mem_append_left _ htext)
  rw [DocLine.ofComment, toList_text_blockToken,
    map_lines_ended DocLine.ofCommentLine_dropReturn hlines hlast,
    List.map_cons, List.map_map, hcontent, hopener, hcloser]

theorem advance_blockToken :
    Position.start.advance ((blockToken content).text.toList ++ ['\n']) =
      .down (content.length + 2) .start := by
  have hended := Position.advance_ended (newline_not_mem_blockStyle h) 0
  have hlength : 0 + (blockStyle content).length = content.length + 2 := by
    simp [blockStyle]
  rwa [ended_blockStyle, hlength] at hended

theorem endLine_blockToken : (blockToken content).endLine = content.length + 2 := by
  have hline := congrArg Position.line (advance_blockToken h)
  rw [Position.line_advance, Position.line_down_start, List.count_append, List.count_singleton_self,
    ← Nat.add_assoc] at hline
  exact Nat.succ.inj hline

/-- The block as the comment above a text. -/
def blockHeading : Heading (content.length + 2) ([] :: content.map trim ++ [[]]) where
  tokens := withLineEnds [blockToken content]
  significant_tokens := significant_withLineEnds (List.forall_mem_singleton.mpr rfl)
  exists_comment := by
    intro place hplace
    have hline : (blockToken content).line < place.line :=
      Nat.lt_of_le_of_lt (Nat.succ_pos _) hplace
    exact ⟨_, DocComment.find?_withLineEnds_concat [] rfl hline, endLine_blockToken h,
      ofComment_blockToken h⟩

theorem scan_blockStyle (source : String) :
    scan (.ofList (ended (blockStyle content)) ++ source) =
      (blockHeading h).tokens ++ (scan source).map (moved (.down (content.length + 2))) := by
  have hread : Lexeme.read true '/'
      ('*' :: (blockInside content ++ ['*', '/']) ++ '\n' :: source.toList) =
        ⟨.blockComment, '*' :: (blockInside content ++ ['*', '/'])⟩ := by
    rw [List.cons_append, List.append_assoc]
    exact read_blockComment (not_infix_blockInside h) true _
  have htext : (blockToken content).text.toList =
      '/' :: '*' :: (blockInside content ++ ['*', '/']) := String.toList_ofList
  have hscan := scanFrom_slash hread .start
  rw [← htext, advance_blockToken h, scanFrom_down (content.length + 2) .start,
    ← List.cons_append, ← htext] at hscan
  rw [scan, String.toList_append, String.toList_ofList, ended_blockStyle, List.append_assoc,
    List.singleton_append]
  exact hscan

end

/-! ## Both styles -/

/-- A content above a declaration on one line documents its functions in both styles, and a check of
the format says the same of them. -/
theorem FunctionRecord.extract_styles {content : List (List Char)} (hne : content ≠ [])
    (h : ∀ line ∈ content, IsContent line) {d : String} (hline : IsOneLine d)
    (hplain : ∀ t ∈ scan d, t.kind.isComment = false) :
    List.Forall₂ (IsBelow content.length (content.map trim)) (extract (scan d))
        (extract (scan (.ofList (ended (lineStyle content)) ++ d))) ∧
      List.Forall₂ (IsBelow (content.length + 2) ([] :: content.map trim ++ [[]]))
        (extract (scan d)) (extract (scan (.ofList (ended (blockStyle content)) ++ d))) ∧
      List.Forall₂ SameVerdict (extract (scan (.ofList (ended (lineStyle content)) ++ d)))
        (extract (scan (.ofList (ended (blockStyle content)) ++ d))) := by
  rw [scan_lineStyle h hne, scan_blockStyle h]
  refine ⟨(lineHeading h hne).forall₂_isBelow hline hplain,
    (blockHeading h).forall₂_isBelow hline hplain, ?_⟩
  refine (lineHeading h hne).forall₂_sameVerdict hline hplain (blockHeading h) ?_
  exact fun names piece => DocPiece.any_isIn_framed names piece _

/-- The content starts with a slash and with dashes, and has a star and a carriage return at an
end. -/
theorem FunctionRecord.extract_styles_copy :
    ["/ Copies `n` bytes*\r".toList, " -- Pure".toList] ≠ [] ∧
      (∀ line ∈ ["/ Copies `n` bytes*\r".toList, " -- Pure".toList], IsContent line) ∧
      IsOneLine "void copy(int n);" ∧
      (∀ t ∈ scan "void copy(int n);", t.kind.isComment = false) ∧
      (extract (scan "void copy(int n);")).map (·.name) = ["copy"] ∧
      List.Forall₂
        (IsBelow 2 (["/ Copies `n` bytes*\r".toList, " -- Pure".toList].map trim))
        (extract (scan "void copy(int n);"))
        (extract (scan (.ofList (ended (lineStyle
          ["/ Copies `n` bytes*\r".toList, " -- Pure".toList])) ++ "void copy(int n);"))) ∧
      List.Forall₂
        (IsBelow 4 ([] :: ["/ Copies `n` bytes*\r".toList, " -- Pure".toList].map trim ++ [[]]))
        (extract (scan "void copy(int n);"))
        (extract (scan (.ofList (ended (blockStyle
          ["/ Copies `n` bytes*\r".toList, " -- Pure".toList])) ++ "void copy(int n);"))) ∧
      List.Forall₂ SameVerdict
        (extract (scan (.ofList (ended (lineStyle
          ["/ Copies `n` bytes*\r".toList, " -- Pure".toList])) ++ "void copy(int n);")))
        (extract (scan (.ofList (ended (blockStyle
          ["/ Copies `n` bytes*\r".toList, " -- Pure".toList])) ++ "void copy(int n);"))) := by
  have hne : ["/ Copies `n` bytes*\r".toList, " -- Pure".toList] ≠ [] :=
    List.cons_ne_nil _ _
  have hcontent : ∀ line ∈ ["/ Copies `n` bytes*\r".toList, " -- Pure".toList],
      IsContent line := by
    refine List.forall_mem_cons.mpr ⟨?_, List.forall_mem_singleton.mpr ?_⟩
    · exact ⟨by decide, by decide +kernel, by decide +kernel⟩
    · exact ⟨by decide, by decide +kernel, by decide +kernel⟩
  have hline : IsOneLine "void copy(int n);" := by decide
  have hplain : ∀ t ∈ scan "void copy(int n);", t.kind.isComment = false := by decide +kernel
  have hextract : (extract (scan "void copy(int n);")).map (·.name) = ["copy"] := by
    decide +kernel
  exact ⟨hne, hcontent, hline, hplain, hextract, extract_styles hne hcontent hline hplain⟩

end HeaderLint
