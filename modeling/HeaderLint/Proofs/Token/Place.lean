import HeaderLint.Proofs.Token.Tiling

/-!
# Where tokens stand in the source

A token knows its line and its column.  `Token.Place` is the same place as a cut of the source: the
text before the token, and the text that the scan has in front of it there.  Every token of a scan
has one place, and it is read off the text there (`Token.Place.isReadOff`).

Tokens do not overlap: no token starts inside the text of another (`Token.Place.isUnbroken`).
-/

namespace HeaderLint

open Text

namespace Token

/-! ## Reading a token -/

/-- The token is read off a text: it is the end of the text, the line feed at its front, or the
lexeme at its front. -/
inductive IsReadOff (t : Token) : List Char → Prop
  | endOfFile (kind : t.kind = .endOfFile) (text : t.text = "") : IsReadOff t []
  | newline (kind : t.kind = .newline) (text : t.text = "\n") (cs : List Char) :
      IsReadOff t ('\n' :: cs)
  | lexeme (lineStart : Bool) {c : Char} (cs : List Char) (solid : isBlank c = false)
      (kind : t.kind = (Lexeme.read lineStart c cs).kind)
      (text : t.text = (Lexeme.read lineStart c cs).text c) : IsReadOff t (c :: cs)

/-- A token that is scanned stands behind some of the text, and it is read off the rest. -/
theorem exists_cut_of_mem_scanFrom {p : Position} {lineStart : Bool} {cs : List Char} {t : Token}
    (ht : t ∈ scanFrom p lineStart cs) :
    ∃ before rest, cs = before ++ rest ∧ t.position = p.advance before ∧ t.IsReadOff rest := by
  fun_induction scanFrom p lineStart cs with
  | case1 p =>
    obtain rfl := List.mem_singleton.mp ht
    exact ⟨[], [], rfl, rfl, .endOfFile rfl rfl⟩
  | case2 p lineStart cs ih =>
    rcases List.mem_cons.mp ht with rfl | ht
    · exact ⟨[], _, rfl, rfl, .newline rfl rfl cs⟩
    · obtain ⟨before, rest, rfl, hplace, hread⟩ := ih ht
      exact ⟨'\n' :: before, rest, rfl, hplace, hread⟩
  | case3 p lineStart c cs hn hb ih =>
    obtain ⟨before, rest, rfl, hplace, hread⟩ := ih ht
    exact ⟨c :: before, rest, rfl, hplace, hread⟩
  | case4 p lineStart c cs hn hb l ih =>
    rcases List.mem_cons.mp ht with rfl | ht
    · exact ⟨[], _, rfl, rfl, .lexeme lineStart cs (Bool.not_eq_true _ ▸ hb) rfl rfl⟩
    · obtain ⟨before, rest, hcut, hplace, hread⟩ := ih ht
      refine ⟨c :: l.tail ++ before, rest, ?_, ?_, hread⟩
      · rw [List.append_assoc, ← hcut, List.cons_append,
          List.prefix_iff_eq_append.mp (Lexeme.tail_read_isPrefix lineStart c cs)]
      · rw [hplace, Position.advance_append]

/-- A token that is no line feed, no directive and not the end of the text has the text of its
lexeme, and its kind tells the rule of the lexeme. -/
theorem IsReadOff.exists_rule {t : Token} {rest : List Char} (h : t.IsReadOff rest)
    (hkind : t.kind ∉ [.newline, .endOfFile, .directive]) :
    ∃ lineStart c cs, rest = c :: cs ∧ Lexeme.RuleOf lineStart c cs t.kind ∧
      t.kind = (Lexeme.read lineStart c cs).kind ∧
      t.text.toList = c :: (Lexeme.read lineStart c cs).tail := by
  cases h with
  | endOfFile kind => exact absurd (by rw [kind]; decide) hkind
  | newline kind => exact absurd (by rw [kind]; decide) hkind
  | lexeme lineStart cs _ kind text =>
    refine ⟨lineStart, _, cs, rfl, Lexeme.ruleOf_of_kind kind.symm, kind, ?_⟩
    rw [text, Lexeme.toList_text_of_ne_directive]
    rintro hdirective
    exact hkind (by rw [kind, hdirective]; decide)

/-- The text of a token stands at the front of the text that it is read off. -/
theorem IsReadOff.text_isPrefix {t : Token} {rest : List Char} (h : t.IsReadOff rest) :
    t.text.toList <+: rest := by
  cases h with
  | endOfFile _ text =>
    rw [text]
    exact List.nil_prefix
  | newline _ text cs =>
    rw [text]
    exact ⟨cs, rfl⟩
  | @lexeme lineStart c cs solid _ text =>
    obtain ⟨gap, -, hcut⟩ := Lexeme.text_append_gap lineStart solid cs
    rw [text]
    refine (List.prefix_append _ gap).trans ?_
    rw [← hcut]
    exact (List.prefix_cons_inj c).mpr (Lexeme.tail_read_isPrefix lineStart c cs)

/-! ## Places -/

/-- Where a token stands in a source. -/
structure Place (source : String) (t : Token) where
  /-- The text before the token. -/
  before : List Char
  /-- The text from the first character of the token on. -/
  rest : List Char
  cut : source.toList = before ++ rest
  position : t.position = .after before

/-- Of two texts that start a source, the longer one ends further down. -/
theorem before_after_of_isPrefix {cs as bs : List Char} (has : as <+: cs) (hbs : bs <+: cs)
    (hlength : as.length < bs.length) : (Position.after as).before (.after bs) = true := by
  obtain ⟨more, rfl⟩ := List.prefix_of_prefix_length_le has hbs (Nat.le_of_lt hlength)
  rw [← Position.advance_after]
  refine Position.before_advance _ ?_
  rintro rfl
  simp at hlength

namespace Place

variable {source : String} {t u : Token}

theorem before_isPrefix (place : Place source t) : place.before <+: source.toList :=
  ⟨place.rest, place.cut.symm⟩

theorem before_of_length_lt (place : Place source t) (other : Place source u)
    (h : place.before.length < other.before.length) : t.position.before u.position = true := by
  rw [place.position, other.position]
  exact before_after_of_isPrefix place.before_isPrefix other.before_isPrefix h

/-- A token has one place. -/
instance : Subsingleton (Place source t) where
  allEq place other := by
    have hlength : ∀ place other : Place source t, place.before.length ≤ other.before.length := by
      intro place other
      refine Nat.le_of_not_lt fun hlt => ?_
      have hself := other.before_of_length_lt place hlt
      rw [t.position.not_before_self] at hself
      cases hself
    have hsame := Nat.le_antisymm (hlength place other) (hlength other place)
    obtain ⟨before, rest, cut, _⟩ := place
    obtain ⟨before', rest', cut', _⟩ := other
    obtain ⟨rfl, rfl⟩ := List.append_inj (cut.symm.trans cut') hsame
    rfl

end Place

/-- Every token of a scan has a place. -/
theorem nonempty_place {source : String} {t : Token} (ht : t ∈ scan source) :
    Nonempty (Place source t) := by
  obtain ⟨before, rest, hcut, hplace, -⟩ := exists_cut_of_mem_scanFrom ht
  rw [Position.advance_start] at hplace
  exact ⟨⟨before, rest, hcut, hplace⟩⟩

/-- A token of a scan is read off the text at its place. -/
theorem Place.isReadOff {source : String} {t : Token} (ht : t ∈ scan source)
    (place : Place source t) : t.IsReadOff place.rest := by
  obtain ⟨before, rest, hcut, hplace, hread⟩ := exists_cut_of_mem_scanFrom ht
  rw [Position.advance_start] at hplace
  rwa [Subsingleton.elim place ⟨before, rest, hcut, hplace⟩]

/-! ## Tokens do not overlap -/

/-- The place behind the text of a token. -/
def endPosition (t : Token) : Position := t.position.advance t.text.toList

theorem Tiles.not_before {p : Position} {cs : List Char} {ts : List Token} (h : Tiles p cs ts) :
    ∀ t ∈ ts, t.position.before p = false := by
  have hmem : ∀ t ∈ ts, ∃ before, t.position = p.advance before := by
    induction h with
    | last => exact List.forall_mem_singleton.mpr ⟨_, rfl⟩
    | token _ _ _ place _ ih =>
      refine List.forall_mem_cons.mpr ⟨⟨_, place⟩, fun u hu => ?_⟩
      obtain ⟨before, hu⟩ := ih u hu
      exact ⟨_, by rw [hu, place, ← Position.advance_append, ← Position.advance_append]⟩
  intro t ht
  obtain ⟨before, ht⟩ := hmem t ht
  rw [ht, p.not_before_of_advance]

/-- The first token has a text, and the second starts no earlier than that text ends. -/
structure EndsBefore (t u : Token) : Prop where
  text_ne : t.text ≠ ""
  not_before : u.position.before t.endPosition = false

/-- Of two tokens of a tiling the one ends before the other starts. -/
theorem Tiles.pairwise_endsBefore {p : Position} {cs : List Char} {ts : List Token}
    (h : Tiles p cs ts) : ts.Pairwise EndsBefore := by
  induction h with
  | last => exact List.pairwise_singleton _ _
  | token _ _ text _ tiles ih =>
    exact List.pairwise_cons.mpr ⟨fun u hu => ⟨text, tiles.not_before u hu⟩, ih⟩

theorem endsBefore_or_endsBefore {source : String} {t u : Token} (ht : t ∈ scan source)
    (hu : u ∈ scan source) (hne : u ≠ t) : EndsBefore t u ∨ EndsBefore u t := by
  have hpairs := (scan_tiles source).pairwise_endsBefore
  have hforward : (scan source).Pairwise fun t u => u ≠ t → EndsBefore t u ∨ EndsBefore u t :=
    hpairs.imp fun h _ => .inl h
  have hbackward : (scan source).Pairwise
      (flip fun t u => u ≠ t → EndsBefore t u ∨ EndsBefore u t) := hpairs.imp fun h _ => .inr h
  exact List.Pairwise.forall_of_forall_of_flip (fun _ _ hself => absurd rfl hself) hforward
    hbackward ht hu hne

/-- No other token of the source starts inside the text of the token. -/
def Place.IsUnbroken {source : String} {t : Token} (place : Place source t) : Prop :=
  ∀ u ∈ scan source, u ≠ t → ∀ other : Place source u,
    ¬(place.before.length ≤ other.before.length ∧
      other.before.length < place.before.length + t.text.toList.length)

theorem Place.isUnbroken {source : String} {t : Token} (ht : t ∈ scan source)
    (place : Place source t) : place.IsUnbroken := by
  intro u hu hne other
  rintro ⟨hle, hlt⟩
  have hend : ∀ {v : Token} (spot : Place source v), v ∈ scan source →
      v.endPosition = .after (spot.before ++ v.text.toList) ∧
        spot.before ++ v.text.toList <+: source.toList := by
    intro v spot hv
    refine ⟨?_, ?_⟩
    · rw [endPosition, spot.position, Position.advance_after]
    · rw [spot.cut]
      exact (List.prefix_append_right_inj _).mpr (spot.isReadOff hv).text_isPrefix
  rcases endsBefore_or_endsBefore ht hu hne with hends | hends
  · obtain ⟨hendPosition, hfront⟩ := hend place ht
    have hbefore := before_after_of_isPrefix other.before_isPrefix hfront (by simpa using hlt)
    rw [← hendPosition, ← other.position, hends.not_before] at hbefore
    cases hbefore
  · obtain ⟨hendPosition, hfront⟩ := hend other hu
    have hpos : 0 < u.text.toList.length :=
      List.length_pos_iff.mpr fun hnil => hends.text_ne (String.toList_eq_nil_iff.mp hnil)
    have hbefore := before_after_of_isPrefix place.before_isPrefix hfront
      (by rw [List.length_append]; omega)
    rw [← hendPosition, ← place.position, hends.not_before] at hbefore
    cases hbefore

end Token

end HeaderLint
