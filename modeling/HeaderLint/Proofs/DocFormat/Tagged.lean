import Mathlib.Data.List.TakeWhile
import HeaderLint.DocFormat
import HeaderLint.Proofs.Text.Occurrence
import HeaderLint.Proofs.Token.Lookahead

/-!
# Lines with a tag

A line may describe a parameter after a tag: the tag `@param` or `\param`, perhaps a direction in
brackets, the name, and text.  The tag and the direction are passed over, and then the name has to
stand there and to end there (`DocLine.describesTagged_iff`).

So a line tells which name it is about: the longest run of characters that continue a name
(`DocLine.taggedName?`).  A line without backquotes describes no parameter with another name
(`DocLine.not_describesParameter_both`).

Two things keep a line with a tag from describing the parameter that it names.

* A name in backquotes is looked for first, wherever it stands, and then only what follows it
  counts.  A description that ends with the name in backquotes counts for nothing.
* Of a direction only letters and brackets are passed over.  The direction `[in,out]` is cut at the
  comma, and the name is looked for there.

`DocLine.describesParameter_taggedLine_iff` says that nothing else does.
-/

namespace HeaderLint

open Text

namespace DocLine

/-! ## Names -/

/-- A word of the language: letters, digits and underscores of ASCII. -/
structure IsWord (cs : List Char) : Prop where
  ne_nil : cs ≠ []
  chars : ∀ c ∈ cs, isWordChar c = true

instance (cs : List Char) : Decidable (IsWord cs) :=
  decidable_of_iff (cs ≠ [] ∧ cs.all isWordChar = true)
    ⟨fun h => ⟨h.1, List.all_eq_true.mp h.2⟩, fun h => ⟨h.ne_nil, List.all_eq_true.mpr h.chars⟩⟩

/-- The character continues a name. -/
def continuesName (c : Char) : Bool := isAlphanumeric c || c == '_'

theorem isAlphanumeric_of_isAlphanum {c : Char} (h : c.isAlphanum = true) :
    isAlphanumeric c = true := by
  delta Char.isAlphanum Char.isAlpha Char.isUpper Char.isLower Char.isDigit at h
  simp only [Bool.or_eq_true, Bool.and_eq_true, decide_eq_true_eq, ge_iff_le,
    UInt32.le_iff_toNat_le] at h
  rw [isAlphanumeric, Bool.or_eq_true, isAlphabetic, isNumeric, inRanges_eq_true_iff,
    inRanges_eq_true_iff]
  rcases h with (h | h) | h
  · exact .inl ⟨(0x41, 0x5a), List.mem_cons_self, h⟩
  · exact .inl ⟨(0x61, 0x7a), List.mem_cons_of_mem _ List.mem_cons_self, h⟩
  · exact .inr ⟨(0x30, 0x39), List.mem_cons_self, h⟩

theorem continuesName_of_isWordChar {c : Char} (h : isWordChar c = true) :
    continuesName c = true := by
  rw [isWordChar, Bool.or_eq_true] at h
  rw [continuesName, Bool.or_eq_true]
  exact h.imp_left isAlphanumeric_of_isAlphanum

/-- A name is read up to where it ends. -/
theorem takeWhile_continuesName {name rest : List Char} (hname : IsWord name)
    (hrest : endsName rest = true) : (name ++ rest).takeWhile continuesName = name := by
  have hstop : rest.takeWhile continuesName = [] := by
    cases rest with
    | nil => rfl
    | cons c rest =>
      rw [endsName, List.head?_cons, Option.any_some, Bool.not_eq_true'] at hrest
      rw [List.takeWhile_cons, continuesName, hrest]
      rfl
  rw [List.takeWhile_append_of_pos fun c hc => continuesName_of_isWordChar (hname.chars c hc),
    hstop, List.append_nil]

/-! ## Tags -/

/-- The character of a direction is passed over. -/
def continuesDirection (c : Char) : Bool := c == '[' || isAlphabetic c || c == ']'

theorem afterTag?_eq_some_iff {tag : String} {line text : List Char} :
    afterTag? tag line = some text ↔
      ∃ rest, tag.toList ++ rest = line ∧ trimStart (rest.dropWhile continuesDirection) = text := by
  simp only [afterTag?, Option.map_eq_some_iff, List.isPrefixOf?_eq_some_iff_append_eq]
  rfl

/-- A line describes a parameter after a tag if its name is what follows, and text follows
the name. -/
theorem describesTagged_iff {tag : String} {line : DocLine} {name : String} :
    describesTagged tag line name = true ↔
      ∃ rest, afterTag? tag line = some (name.toList ++ rest) ∧ endsName rest = true ∧
        isProse rest = true := by
  rw [describesTagged]
  cases htext : afterTag? tag line with
  | none => simp
  | some text =>
    rw [Option.bind_some]
    cases hrest : name.toList.isPrefixOf? text with
    | none =>
      refine iff_of_false Bool.false_ne_true ?_
      rintro ⟨rest, hname, -⟩
      rw [List.isPrefixOf?_eq_some_iff_append_eq.mpr (Option.some.inj hname).symm] at hrest
      cases hrest
    | some rest =>
      rw [List.isPrefixOf?_eq_some_iff_append_eq] at hrest
      simp only [Bool.and_eq_true, Option.some.injEq, ← hrest, List.append_cancel_left_eq,
        exists_eq_left']

/-! ## The name of a line -/

/-- What follows the tag of a line, if it has one. -/
def tagged? (line : DocLine) : Option (List Char) :=
  (afterTag? "@param" line).or (afterTag? "\\param" line)

/-- The name that a line with a tag is about. -/
def taggedName? (line : DocLine) : Option (List Char) :=
  (tagged? line).map (List.takeWhile continuesName)

/-- A line has one tag at most. -/
theorem tagged?_of_afterTag? {tag : String} (htag : tag = "@param" ∨ tag = "\\param")
    {line : DocLine} {text : List Char} (h : afterTag? tag line = some text) :
    tagged? line = some text := by
  rw [tagged?]
  rcases htag with rfl | rfl
  · rw [h, Option.some_or]
  · obtain ⟨rest, hline, -⟩ := afterTag?_eq_some_iff.mp h
    have hother : afterTag? "@param" line = none := by
      rw [← hline]
      rfl
    rw [hother, Option.none_or, h]

/-- Without its name in backquotes, a parameter is described by a line with a tag, the name and
text. -/
theorem describesParameter_iff_of_none {line : DocLine} {name : String}
    (h : afterFirst (backquoted name) line = none) :
    describesParameter line name = true ↔
      ∃ rest, tagged? line = some (name.toList ++ rest) ∧ endsName rest = true ∧
        isProse rest = true := by
  rw [describesParameter, h, Bool.or_eq_true, describesTagged_iff, describesTagged_iff]
  constructor
  · rintro (⟨rest, htext, hrest⟩ | ⟨rest, htext, hrest⟩)
    · exact ⟨rest, tagged?_of_afterTag? (.inl rfl) htext, hrest⟩
    · exact ⟨rest, tagged?_of_afterTag? (.inr rfl) htext, hrest⟩
  · rintro ⟨rest, htext, hrest⟩
    rcases Option.or_eq_some_iff.mp htext with htext | ⟨-, htext⟩
    · exact .inl ⟨rest, htext, hrest⟩
    · exact .inr ⟨rest, htext, hrest⟩

/-- The name of a parameter that a line describes is the name that the line is about. -/
theorem taggedName?_eq_some {line : DocLine} (hline : '`' ∉ line) {name : String}
    (hname : IsWord name.toList) (h : describesParameter line name = true) :
    taggedName? line = some name.toList := by
  obtain ⟨rest, htext, hends, -⟩ :=
    (describesParameter_iff_of_none (afterFirst_eq_none hline)).mp h
  rw [taggedName?, htext, Option.map_some, takeWhile_continuesName hname hends]

/-- A line without backquotes does not describe two parameters with different names. -/
theorem not_describesParameter_both {line : DocLine} (hline : '`' ∉ line) {m n : String}
    (hm : IsWord m.toList) (hn : IsWord n.toList) (hne : m ≠ n) :
    ¬(describesParameter line m = true ∧ describesParameter line n = true) := by
  rintro ⟨hdescribes, hdescribes'⟩
  have hm := taggedName?_eq_some hline hm hdescribes
  have hn := taggedName?_eq_some hline hn hdescribes'
  rw [hm, Option.some.injEq, String.toList_inj] at hn
  exact hne hn

/-- One name starts with the other one, and a direction stands before it. -/
theorem not_describesParameter_both_longer :
    '`' ∉ "@param[in] dst_len bytes of dst".toList ∧ IsWord "dst".toList ∧
      IsWord "dst_len".toList ∧ "dst" ≠ "dst_len" ∧
      ¬(describesParameter "@param[in] dst_len bytes of dst".toList "dst" = true ∧
        describesParameter "@param[in] dst_len bytes of dst".toList "dst_len" = true) := by
  have hline : '`' ∉ "@param[in] dst_len bytes of dst".toList := by decide
  have hm : IsWord "dst".toList := by decide
  have hn : IsWord "dst_len".toList := by decide
  have hne : "dst" ≠ "dst_len" := by decide
  exact ⟨hline, hm, hn, hne, not_describesParameter_both hline hm hn hne⟩

/-! ## Directions -/

/-- What may stand between a tag and the name: nothing, or a text in brackets without blanks and
closing brackets. -/
inductive IsDirection : List Char → Prop where
  | none : IsDirection []
  | bracketed {text : List Char} (inside : ']' ∉ text) (solid : text.any isBlank = false) :
      IsDirection ('[' :: (text ++ [']']))

theorem IsDirection.not_isBlank {direction : List Char} (h : IsDirection direction) :
    ∀ c ∈ direction, isBlank c = false := by
  cases h with
  | none => exact List.forall_mem_nil _
  | bracketed inside solid =>
    refine List.forall_mem_cons.mpr ⟨by decide, List.forall_mem_append.mpr ⟨?_, ?_⟩⟩
    · exact fun c hc => Bool.eq_false_iff.mpr (List.any_eq_false.mp solid c hc)
    · exact List.forall_mem_singleton.mpr (by decide)

/-- A line with a tag, a direction, a name and a text, and a space on both sides of the name. -/
def taggedLine (tag : String) (direction : List Char) (name : String) (text : List Char) :
    DocLine :=
  tag.toList ++ (direction ++ ' ' :: (name.toList ++ ' ' :: text))

/-- The direction is passed over as far as the name: all of it, or up to where it goes on with the
name itself. -/
def Passes (direction : List Char) (name : String) : Prop :=
  (∀ c ∈ direction, continuesDirection c = true) ∨
    ∃ rest, direction.dropWhile continuesDirection = name.toList ++ rest ∧ endsName rest = true

variable {tag name : String} {direction text : List Char}

theorem IsWord.not_isBlank {cs : List Char} (h : IsWord cs) : ∀ c ∈ cs, isBlank c = false :=
  fun c hc => isBlank_of_isWordChar (h.chars c hc)

theorem IsWord.not_mem {cs : List Char} (h : IsWord cs) {c : Char} (hc : isWordChar c = false) :
    c ∉ cs := by
  intro hmem
  rw [h.chars c hmem] at hc
  cases hc

theorem trimStart_eq_self {cs : List Char} (h : ∀ c ∈ cs, isBlank c = false) (ds : List Char)
    (hne : cs ≠ []) : trimStart (cs ++ ds) = cs ++ ds := by
  obtain ⟨c, cs, rfl⟩ := List.exists_cons_of_ne_nil hne
  rw [trimStart, List.cons_append, List.dropWhile_cons, h c List.mem_cons_self]
  rfl

/-- A space ends a name. -/
theorem endsName_append_space (rest more : List Char) :
    endsName (rest ++ ' ' :: more) = endsName rest := by
  have hspace : (isAlphanumeric ' ' || ' ' == '_') = false := by decide +kernel
  cases rest with
  | nil =>
    rw [List.nil_append, endsName, List.head?_cons, Option.any_some, hspace]
    rfl
  | cons c rest => rfl

/-- What follows the tag: the name and the text if the whole direction is passed over, and
otherwise the rest of the direction first. -/
theorem afterTag?_taggedLine (hd : IsDirection direction) (hname : IsWord name.toList) :
    afterTag? tag (taggedLine tag direction name text) =
      some (if direction.dropWhile continuesDirection = [] then name.toList ++ ' ' :: text
        else direction.dropWhile continuesDirection ++ ' ' :: (name.toList ++ ' ' :: text)) := by
  refine afterTag?_eq_some_iff.mpr ⟨_, rfl, ?_⟩
  have hspace : continuesDirection ' ' = false := by decide +kernel
  rw [List.dropWhile_append]
  split
  · next h =>
    rw [List.isEmpty_iff] at h
    rw [if_pos h, List.dropWhile_cons, hspace, if_neg Bool.false_ne_true]
    exact trimStart_eq_self hname.not_isBlank _ hname.ne_nil
  · next h =>
    rw [List.isEmpty_iff] at h
    rw [if_neg h]
    exact trimStart_eq_self
      (fun c hc => hd.not_isBlank c ((List.dropWhile_suffix _).subset hc)) _ h

theorem isProse_append_space (cs : List Char) (h : isProse text = true) :
    isProse (cs ++ ' ' :: text) = true := by
  rw [isProse, List.any_append, List.any_cons, ← isProse, ← isProse, h, Bool.or_true, Bool.or_true]

/-- A line with a tag is about its name if the direction is passed over. -/
theorem exists_tagged?_taggedLine_iff (htag : tag = "@param" ∨ tag = "\\param")
    (hd : IsDirection direction) (hname : IsWord name.toList) (htext : isProse text = true) :
    (∃ rest, tagged? (taggedLine tag direction name text) = some (name.toList ++ rest) ∧
        endsName rest = true ∧ isProse rest = true) ↔
      Passes direction name := by
  have hspace : ' ' ∉ name.toList := hname.not_mem (by decide)
  rw [tagged?_of_afterTag? htag (afterTag?_taggedLine hd hname), Passes]
  simp only [Option.some.injEq]
  split
  · next h =>
    have hrest : endsName (' ' :: text) = true := endsName_append_space [] text
    exact iff_of_true ⟨' ' :: text, rfl, hrest, isProse_append_space [] htext⟩
      (.inl (List.dropWhile_eq_nil_iff.mp h))
  · next h =>
    rw [or_iff_right (mt List.dropWhile_eq_nil_iff.mpr h)]
    constructor
    · rintro ⟨rest, hrest, hends, -⟩
      obtain ⟨front, hleft, rfl⟩ := (append_cons_eq_append_iff hspace).mp hrest
      rw [endsName_append_space] at hends
      exact ⟨front, hleft, hends⟩
    · rintro ⟨front, hleft, hends⟩
      refine ⟨_, (append_cons_eq_append_iff hspace).mpr ⟨front, hleft, rfl⟩, ?_, ?_⟩
      · rw [endsName_append_space, hends]
      · rw [← List.cons_append, ← List.append_assoc]
        exact isProse_append_space _ htext

/-- The first place of the name in backquotes is in the direction or in the text. -/
theorem afterFirst_taggedLine (htag : tag = "@param" ∨ tag = "\\param")
    (hname : IsWord name.toList) :
    afterFirst (backquoted name) (taggedLine tag direction name text) =
      ((afterFirst (backquoted name) direction).map (· ++ ' ' :: (name.toList ++ ' ' :: text))).or
        (afterFirst (backquoted name) text) := by
  have hbackquote : '`' ∉ tag.toList := by
    rcases htag with rfl | rfl <;> decide
  have hspace : ' ' ∉ backquoted name := by
    have hword : ' ' ∉ name.toList := hname.not_mem (by decide)
    simp [backquoted, hword]
  have hbehind : '`' ∉ name.toList ++ [' '] := by
    have hword : '`' ∉ name.toList := hname.not_mem (by decide)
    simp [hword]
  have hskip : afterFirst (backquoted name) (name.toList ++ ' ' :: text) =
      afterFirst (backquoted name) text := by
    rw [List.append_cons]
    exact afterFirst_append_of_not_mem hbehind text
  calc afterFirst (backquoted name) (taggedLine tag direction name text)
    _ = afterFirst (backquoted name) (direction ++ ' ' :: (name.toList ++ ' ' :: text)) :=
      afterFirst_append_of_not_mem hbackquote _
    _ = ((afterFirst (backquoted name) direction).map
          (· ++ ' ' :: (name.toList ++ ' ' :: text))).or
        (afterFirst (backquoted name) (name.toList ++ ' ' :: text)) :=
      afterFirst_append_cons (List.cons_ne_nil _ _) hspace _ _
    _ = _ := by rw [hskip]

/-- Which lines with a tag, a name and a text describe the parameter that they name.  If the name
stands in backquotes too, there has to be prose behind the first such place, as there always is
behind the direction.  If it does not, the direction has to be passed over, as every direction of
letters is. -/
theorem describesParameter_taggedLine_iff (htag : tag = "@param" ∨ tag = "\\param")
    (hd : IsDirection direction) (hname : IsWord name.toList) (htext : isProse text = true) :
    describesParameter (taggedLine tag direction name text) name = true ↔
      holds (backquoted name) direction = true ∨
        (∃ rest, afterFirst (backquoted name) text = some rest ∧ isProse rest = true) ∨
        (holds (backquoted name) text = false ∧ Passes direction name) := by
  have hfirst : afterFirst (backquoted name) (taggedLine tag direction name text) = _ :=
    afterFirst_taggedLine htag hname
  rw [holds, holds]
  cases hdirection : afterFirst (backquoted name) direction with
  | some rest =>
    rw [hdirection, Option.map_some, Option.some_or] at hfirst
    refine iff_of_true ?_ (.inl rfl)
    rw [describesParameter, hfirst, ← List.cons_append, ← List.append_assoc]
    exact isProse_append_space _ htext
  | none =>
    rw [hdirection, Option.map_none, Option.none_or] at hfirst
    cases hplace : afterFirst (backquoted name) text with
    | some rest =>
      rw [describesParameter, hfirst, hplace]
      simp
    | none =>
      rw [hplace] at hfirst
      rw [describesParameter_iff_of_none hfirst, exists_tagged?_taggedLine_iff htag hd hname htext]
      simp

/-- The name in backquotes is not the last word of the text. -/
theorem describesParameter_taggedLine_iff_in :
    IsDirection "[in]".toList ∧ IsWord "dst".toList ∧ isProse "`dst` if set".toList = true ∧
      (describesParameter (taggedLine "@param" "[in]".toList "dst" "`dst` if set".toList) "dst" =
        true ↔
      holds (backquoted "dst") "[in]".toList = true ∨
        (∃ rest, afterFirst (backquoted "dst") "`dst` if set".toList = some rest ∧
          isProse rest = true) ∨
        (holds (backquoted "dst") "`dst` if set".toList = false ∧ Passes "[in]".toList "dst")) := by
  have hd : IsDirection "[in]".toList := by
    have hsolid : ['i', 'n'].any isBlank = false := by decide +kernel
    exact .bracketed (by decide) hsolid
  have hname : IsWord "dst".toList := by decide
  have htext : isProse "`dst` if set".toList = true := by decide +kernel
  exact ⟨hd, hname, htext, describesParameter_taggedLine_iff (.inl rfl) hd hname htext⟩

/-- A text that ends with the name in backquotes, and a direction with a comma. -/
theorem not_describesParameter_taggedLine :
    (IsDirection [] ∧ IsWord "dst".toList ∧ isProse "copied into `dst`".toList = true ∧
      describesParameter (taggedLine "@param" [] "dst" "copied into `dst`".toList) "dst" = false) ∧
    (IsDirection "[in,out]".toList ∧ isProse "where".toList = true ∧
      describesParameter (taggedLine "@param" "[in,out]".toList "dst" "where".toList) "dst" =
        false) := by
  have hsolid : ['i', 'n', ',', 'o', 'u', 't'].any isBlank = false := by decide +kernel
  exact ⟨⟨.none, by decide, by decide +kernel, by decide +kernel⟩,
    .bracketed (by decide) hsolid, by decide +kernel, by decide +kernel⟩

end DocLine

end HeaderLint
