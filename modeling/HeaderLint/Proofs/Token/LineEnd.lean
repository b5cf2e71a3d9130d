import HeaderLint.Proofs.Token.Lookahead
import HeaderLint.Proofs.Token.Moved
import HeaderLint.Proofs.Token.Tiling

/-!
# Scanning behind a line end

A line feed that is a token by itself cuts a scan in two.  The tokens before it do
not see what follows, and behind it the scan starts anew, only further down.
`Token.EndsLine` says that a text ends with such a line feed, or is empty.  A line
feed inside a comment or behind the backslash of a literal is no token, and it does
not end a line in this sense.

`Token.scan_append` says that the scan of two texts is the scan of the first, without
its last token, and the scan of the second moved down.  So a text may be scanned piece
by piece (`Token.scanPieces`).

A lexeme in front of the line feed stays the same when more text follows: its text is
cut off from the new one by a blank, so it shows the same front and stops alike
(`frontLE_append`, `stops_append`).
-/

namespace HeaderLint

open Text

theorem frontLE_append {cs : List Char} (h : '\n' ∈ cs) (ds : List Char) :
    FrontLE (cs ++ ds) cs := by
  intro run hrun hp
  rcases List.prefix_or_prefix_of_prefix hp (List.prefix_append cs ds) with hshort | hlong
  · exact hshort
  · have hblank := hrun '\n' (hlong.subset h)
    exact absurd hblank (by decide)

theorem stops_append {cs : List Char} (h : cs ≠ []) (ds : List Char) : Stops (cs ++ ds) cs := by
  refine Or.inr ⟨h, ?_⟩
  intro hhead
  rw [head?_append_eq h [] ds, List.append_nil, hhead]

namespace Token

/-! ## Line ends -/

/-- A scan from a place ends its line: the text is empty where a line starts, or it ends
with a line feed, and the last token before the end is one. -/
structure EndsLineFrom (p : Position) (lineStart : Bool) (cs : List Char) : Prop where
  /-- An empty text ends a line only if the line has not started. -/
  start : cs = [] → lineStart = true
  /-- The last character is a line feed. -/
  char : ∀ c, cs.getLast? = some c → c = '\n'
  /-- The last token is a line feed. -/
  token : ∀ t, (scanFrom p lineStart cs).dropLast.getLast? = some t → t.kind = .newline

/-- The text is empty, or it ends with a line feed and the last token before the end is
one. -/
def EndsLine (source : String) : Prop :=
  source = "" ∨
    source.toList.getLast? = some '\n' ∧
      (scan source).dropLast.getLast?.map Token.kind = some .newline

instance (source : String) : Decidable (EndsLine source) :=
  inferInstanceAs (Decidable (_ ∨ _ ∧ _))

theorem EndsLine.endsLineFrom {source : String} (h : EndsLine source) :
    EndsLineFrom .start true source.toList := by
  rcases h with rfl | ⟨hchar, htoken⟩
  · refine ⟨fun _ => rfl, ?_, ?_⟩
    · intro c hc
      cases hc
    · intro t ht
      rw [String.toList_empty, scanFrom_nil] at ht
      cases ht
  · refine ⟨fun _ => rfl, ?_, ?_⟩
    · intro c hc
      rw [hchar] at hc
      exact (Option.some.inj hc).symm
    · intro t ht
      rw [scan, ht, Option.map_some] at htoken
      exact Option.some.inj htoken

theorem scanFrom_ne_nil (p : Position) (lineStart : Bool) (cs : List Char) :
    scanFrom p lineStart cs ≠ [] := by
  intro h
  have htiles := scanFrom_tiles p lineStart cs
  rw [h] at htiles
  cases htiles

namespace EndsLineFrom

variable {p q : Position} {lineStart next : Bool} {c : Char} {t : Token} {cs ds : List Char}

theorem newline_mem (h : EndsLineFrom p lineStart cs) (hne : cs ≠ []) : '\n' ∈ cs := by
  have hlast := List.getLast_mem hne
  rwa [h.char _ (List.getLast?_eq_some_getLast hne)] at hlast

/-- What follows the first token ends the line if the whole does. -/
theorem behind (h : EndsLineFrom p lineStart cs) (hds : ds <:+ cs)
    (hscan : scanFrom p lineStart cs = t :: scanFrom q next ds) (hstart : ds = [] → next = true) :
    EndsLineFrom q next ds := by
  refine ⟨hstart, ?_, ?_⟩
  · obtain ⟨part, rfl⟩ := hds
    intro d hd
    refine h.char d ?_
    rw [List.getLast?_append, hd]
    rfl
  · intro u hu
    refine h.token u ?_
    rw [hscan, List.dropLast_cons_of_ne_nil (scanFrom_ne_nil q next ds), List.getLast?_cons, hu]
    rfl

theorem behind_newline (h : EndsLineFrom p lineStart ('\n' :: cs)) :
    EndsLineFrom (p.step '\n') true cs :=
  h.behind (List.suffix_cons '\n' cs) (scanFrom_newline p lineStart cs) fun _ => rfl

theorem behind_blank (h : EndsLineFrom p lineStart (c :: cs)) (hn : c ≠ '\n')
    (hb : isBlank c = true) : EndsLineFrom (p.step c) lineStart cs := by
  refine ⟨?_, ?_, ?_⟩
  · rintro rfl
    exact absurd (h.char c rfl) hn
  · intro d hd
    exact h.char d (by rw [List.getLast?_cons, hd]; rfl)
  · intro t ht
    exact h.token t (scanFrom_blank p lineStart cs hn hb ▸ ht)

/-- Something stands behind a lexeme, since a line feed is none. -/
theorem behind_lexeme (h : EndsLineFrom p lineStart (c :: cs)) (hn : c ≠ '\n')
    (hb : isBlank c = false) :
    cs.drop (Lexeme.read lineStart c cs).tail.length ≠ [] ∧
      EndsLineFrom (p.advance (c :: (Lexeme.read lineStart c cs).tail))
        (lineStart && (Lexeme.read lineStart c cs).kind.isComment)
        (cs.drop (Lexeme.read lineStart c cs).tail.length) := by
  have hscan := scanFrom_lexeme p lineStart cs hn hb
  have hne : cs.drop (Lexeme.read lineStart c cs).tail.length ≠ [] := by
    intro hnil
    rw [hnil, scanFrom_nil] at hscan
    exact (Lexeme.kind_read_ne lineStart c cs).1 (h.token _ (by rw [hscan]; rfl))
  have hsuffix := (List.drop_suffix (Lexeme.read lineStart c cs).tail.length cs).trans
    (List.suffix_cons c cs)
  exact ⟨hne, h.behind hsuffix hscan fun hnil => absurd hnil hne⟩

end EndsLineFrom

/-! ## What follows a line end -/

/-- Behind a line end a scan starts anew. -/
theorem scanFrom_append {p : Position} {lineStart : Bool} {cs : List Char}
    (h : EndsLineFrom p lineStart cs) (ds : List Char) :
    scanFrom p lineStart (cs ++ ds) =
      (scanFrom p lineStart cs).dropLast ++ scanFrom (p.advance cs) true ds := by
  fun_induction scanFrom p lineStart cs with
  | case1 p lineStart =>
    rw [h.start rfl]
    rfl
  | case2 p lineStart cs ih =>
    rw [List.cons_append, scanFrom_newline, ih h.behind_newline,
      List.dropLast_cons_of_ne_nil (scanFrom_ne_nil _ _ _)]
    rfl
  | case3 p lineStart c cs hn hb ih =>
    rw [List.cons_append, scanFrom_blank p lineStart _ hn hb, ih (h.behind_blank hn hb)]
    rfl
  | case4 p lineStart c cs hn hb l ih =>
    rw [Bool.not_eq_true] at hb
    obtain ⟨hne, hbehind⟩ := h.behind_lexeme hn hb
    have hcut : l.tail ++ cs.drop l.tail.length = cs :=
      List.prefix_iff_eq_append.mp (Lexeme.tail_read_isPrefix lineStart c cs)
    -- The line ends behind the lexeme, so the lexeme does not see the new text.
    have happend : cs ++ ds = l.tail ++ (cs.drop l.tail.length ++ ds) := by
      rw [← List.append_assoc, hcut]
    have hread : Lexeme.read lineStart c (cs ++ ds) = l := by
      rw [happend, Lexeme.read_append (frontLE_append (hbehind.newline_mem hne) ds)
        (stops_append hne ds) (by rw [hcut]), hcut]
    have hdrop : (cs ++ ds).drop l.tail.length = cs.drop l.tail.length ++ ds := by
      rw [happend, List.drop_left]
    rw [List.cons_append, scanFrom_lexeme p lineStart _ hn hb, hread, hdrop, ih hbehind,
      List.dropLast_cons_of_ne_nil (scanFrom_ne_nil _ _ _), List.cons_append,
      ← Position.advance_append, List.cons_append, hcut]

/-- The tokens before a line end start above what follows, and all but line feeds end
there too. -/
theorem EndsLineFrom.line_lt {p : Position} {lineStart : Bool} {cs : List Char}
    (h : EndsLineFrom p lineStart cs) :
    ∀ t ∈ (scanFrom p lineStart cs).dropLast,
      t.line < (p.advance cs).line ∧ (t.kind ≠ .newline → t.endLine < (p.advance cs).line) := by
  fun_induction scanFrom p lineStart cs with
  | case1 p lineStart => simp
  | case2 p lineStart cs ih =>
    rw [List.dropLast_cons_of_ne_nil (scanFrom_ne_nil _ _ _), List.forall_mem_cons]
    refine ⟨⟨?_, fun hk => absurd rfl hk⟩, ih h.behind_newline⟩
    rw [Position.line_advance, List.count_cons_self]
    show p.line < _
    omega
  | case3 p lineStart c cs hn hb ih => exact ih (h.behind_blank hn hb)
  | case4 p lineStart c cs hn hb l ih =>
    rw [Bool.not_eq_true] at hb
    obtain ⟨hne, hbehind⟩ := h.behind_lexeme hn hb
    obtain ⟨gap, -, htext⟩ : ∃ gap, IsGap gap ∧ c :: l.tail = (l.text c).toList ++ gap :=
      Lexeme.text_append_gap lineStart hb cs
    have hcut : l.tail ++ cs.drop l.tail.length = cs :=
      List.prefix_iff_eq_append.mp (Lexeme.tail_read_isPrefix lineStart c cs)
    have hall : (p.advance (c :: cs)) =
        (p.advance (c :: l.tail)).advance (cs.drop l.tail.length) := by
      rw [← Position.advance_append, List.cons_append, hcut]
    have hnewline : 0 < (cs.drop l.tail.length).count '\n' :=
      List.count_pos_iff.mpr (hbehind.newline_mem hne)
    have hend : p.line + (l.text c).toList.count '\n' < (p.advance (c :: cs)).line := by
      rw [hall, Position.line_advance, Position.line_advance, htext, List.count_append]
      omega
    rw [List.dropLast_cons_of_ne_nil (scanFrom_ne_nil _ _ _), List.forall_mem_cons, hall]
    rw [hall] at hend
    exact ⟨⟨Nat.lt_of_le_of_lt (Nat.le_add_right _ _) hend, fun _ => hend⟩, ih hbehind⟩

/-! ## Texts behind a line end -/

/-- The number of line feeds of a text. -/
def lineFeeds (source : String) : Nat := source.toList.count '\n'

theorem advance_of_getLast? {source : String} (h : source.toList.getLast? = some '\n') :
    Position.start.advance source.toList = Position.start.down (lineFeeds source) := by
  obtain ⟨cs, hcs⟩ := List.getLast?_eq_some_iff.mp h
  rw [lineFeeds, hcs, Position.advance_start, Position.after_concat, List.count_append]
  show Position.mk _ 1 = Position.mk _ 1
  rw [Position.mk.injEq]
  exact ⟨by simp [Position.after, Position.start]; omega, rfl⟩

/-- A text that ends its line leads to the start of a line. -/
theorem EndsLine.advance {source : String} (h : EndsLine source) :
    Position.start.advance source.toList = Position.start.down (lineFeeds source) := by
  rcases h with rfl | ⟨hchar, -⟩
  · rfl
  · exact advance_of_getLast? hchar

theorem EndsLine.scan_append_eq {a : String} (h : EndsLine a) (b : String) :
    scan (a ++ b) =
      (scan a).dropLast ++ scanFrom (Position.start.down (lineFeeds a)) true b.toList := by
  rw [scan, String.toList_append, scanFrom_append h.endsLineFrom, h.advance]
  rfl

/-- The tokens before the end stand on the lines of the text, and so do the ends of all
but line feeds. -/
theorem EndsLine.line_le {source : String} (h : EndsLine source) :
    ∀ t ∈ (scan source).dropLast,
      t.line ≤ lineFeeds source ∧ (t.kind ≠ .newline → t.endLine ≤ lineFeeds source) := by
  intro t ht
  have hlt := h.endsLineFrom.line_lt t ht
  rw [h.advance, Position.line_down_start] at hlt
  exact ⟨Nat.le_of_lt_succ hlt.1, fun hk => Nat.le_of_lt_succ (hlt.2 hk)⟩

/-- The tokens behind a text that ends its line stand below its lines. -/
theorem lt_line_of_mem_scanFrom_down {lines : Nat} {lineStart : Bool} {cs : List Char} {t : Token}
    (h : t ∈ scanFrom (Position.start.down lines) lineStart cs) : lines < t.line := by
  have hle := (scanFrom_tiles _ _ _).le_line t h
  rwa [Position.line_down_start] at hle

/-- The tokens of a text that is scanned piece by piece, the last piece apart.  Each
piece is scanned as a text of its own, and its tokens are moved to where it stands. -/
def scanPieces (last : String) : List String → List Token
  | [] => scan last
  | piece :: pieces =>
    (scan piece).dropLast ++ (scanPieces last pieces).map (moved (.down (lineFeeds piece)))

/-- The scan of a text behind a line end is the scan of what stands before, without its
last token, and the scan of the text moved down.  So pieces that end their lines may be
scanned one by one. -/
theorem scan_append :
    (∀ a b : String, EndsLine a →
      scan (a ++ b) = (scan a).dropLast ++ (scan b).map (moved (.down (lineFeeds a)))) ∧
    ∀ (last : String) (pieces : List String), (∀ a ∈ pieces, EndsLine a) →
      scan (pieces.foldr (· ++ ·) last) = scanPieces last pieces := by
  have happend : ∀ a b : String, EndsLine a →
      scan (a ++ b) = (scan a).dropLast ++ (scan b).map (moved (.down (lineFeeds a))) := by
    intro a b h
    rw [h.scan_append_eq b, scanFrom_down]
    rfl
  refine ⟨happend, ?_⟩
  intro last pieces h
  induction pieces with
  | nil => rfl
  | cons piece pieces ih =>
    obtain ⟨hpiece, hpieces⟩ := List.forall_mem_cons.mp h
    rw [List.foldr_cons, happend _ _ hpiece, ih hpieces]
    rfl

/-- A line feed in a comment and one behind a backslash do not end a line, and the last
one does. -/
theorem scan_append_continued :
    EndsLine "/*\n*/ \"\\\n\" \n" ∧
      scan ("/*\n*/ \"\\\n\" \n" ++ "#x") =
        (scan "/*\n*/ \"\\\n\" \n").dropLast ++ (scan "#x").map (moved (.down 3)) ∧
      scan ("/*\n*/ \"\\\n\" \n" ++ ("/*\n*/ \"\\\n\" \n" ++ "#x")) =
        scanPieces "#x" ["/*\n*/ \"\\\n\" \n", "/*\n*/ \"\\\n\" \n"] := by
  have h : EndsLine "/*\n*/ \"\\\n\" \n" := by decide +kernel
  exact ⟨h, scan_append.1 _ "#x" h,
    scan_append.2 "#x" [_, _] (List.forall_mem_cons.mpr ⟨h, List.forall_mem_singleton.mpr h⟩)⟩

end Token

end HeaderLint
