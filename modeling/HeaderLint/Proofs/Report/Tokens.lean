import Mathlib.Data.List.Nodup
import HeaderLint.Proofs.Report.Summary
import HeaderLint.Proofs.Text.Quoted

/-!
# The text form of tokens tells the tokens

The text form of a list of tokens has one line for each of them, and no two lists have the same
text form (`Token.renderAll_text_lossless`).

A line is told apart from the left.  A number stops at the mark behind it, since that is no digit.
The title of a kind has no tab in it, so it stops at the tab, and no two kinds have the same title.
The rest of the line is the quoted text of the token, which holds no line end.
-/

namespace HeaderLint

open Text

/-! ## Titles -/

namespace TokenKind

theorem mem_all (kind : TokenKind) : kind ∈ all := by
  cases kind <;> decide

theorem title_injective : Function.Injective title := fun kind kind' h =>
  List.inj_on_of_nodup_map (by decide) kind.mem_all kind'.mem_all h

theorem tab_not_mem_title (kind : TokenKind) : '\t' ∉ kind.title.toList := by
  cases kind <;> decide

theorem newline_not_mem_title (kind : TokenKind) : '\n' ∉ kind.title.toList := by
  cases kind <;> decide

theorem takeWhile_title (kind : TokenKind) (rest : List Char) :
    (kind.title.toList ++ '\t' :: rest).takeWhile (· != '\t') = kind.title.toList := by
  have htitle : ∀ c ∈ kind.title.toList, (c != '\t') = true := by
    intro c hc
    rw [bne_iff_ne]
    exact fun h => kind.tab_not_mem_title (h ▸ hc)
  rw [List.takeWhile_append_of_pos htitle, List.takeWhile_cons_of_neg (by simp), List.append_nil]

/-- A title ends at the tab behind it. -/
theorem title_append_tab_inj {kind kind' : TokenKind} {rest rest' : List Char}
    (h : kind.title.toList ++ '\t' :: rest = kind'.title.toList ++ '\t' :: rest') :
    kind = kind' ∧ rest = rest' := by
  have htitle := congrArg (List.takeWhile (· != '\t')) h
  rw [takeWhile_title, takeWhile_title] at htitle
  obtain rfl := title_injective (String.toList_inj.mp htitle)
  exact ⟨rfl, (List.cons.inj (List.append_cancel_left h)).2⟩

end TokenKind

namespace Token

/-! ## Lines -/

theorem toList_renderLine (t : Token) :
    t.renderLine.toList = t.line.repr.toList ++ ':' :: (t.column.repr.toList ++ '\t' ::
      (t.kind.title.toList ++ '\t' :: quoted t.text.toList)) := by
  have hcolon : ":".toList = [':'] := rfl
  have htab : "\t".toList = ['\t'] := rfl
  simp only [renderLine, String.toList_append, String.toList_ofList, hcolon, htab,
    List.append_assoc, List.cons_append, List.nil_append]

theorem newline_not_mem_renderLine (t : Token) : '\n' ∉ t.renderLine.toList := by
  simp only [toList_renderLine, List.mem_append, List.mem_cons, not_or]
  exact ⟨newline_not_mem_repr t.line, by decide, newline_not_mem_repr t.column, by decide,
    t.kind.newline_not_mem_title, by decide, newline_not_mem_quoted t.text.toList⟩

/-- A line tells its token. -/
theorem renderLine_injective : Function.Injective renderLine := by
  rintro ⟨kind, text, ⟨line, column⟩⟩ ⟨kind', text', ⟨line', column'⟩⟩ h
  have heq := congrArg String.toList h
  rw [toList_renderLine, toList_renderLine] at heq
  obtain ⟨hline, heq⟩ := isDelimited_repr _ _ _ _ (endsNumber_cons (by decide) _)
    (endsNumber_cons (by decide) _) heq
  obtain ⟨hcolumn, heq⟩ := isDelimited_repr _ _ _ _ (endsNumber_cons (by decide) _)
    (endsNumber_cons (by decide) _) (List.cons.inj heq).2
  obtain ⟨hkind, heq⟩ := TokenKind.title_append_tab_inj (List.cons.inj heq).2
  have htext := (quoted_append_inj (congrArg (· ++ []) heq)).1
  cases hline
  cases hcolumn
  cases hkind
  cases String.toList_inj.mp htext
  rfl

end Token

theorem splitOn_unlines {ls : List String} (h : ∀ l ∈ ls, '\n' ∉ l.toList) :
    (unlines ls).toList.splitOn '\n' = ls.map String.toList ++ [[]] := by
  induction ls with
  | nil => rfl
  | cons l ls ih =>
    obtain ⟨hl, hls⟩ := List.forall_mem_cons.mp h
    have hcons : (unlines (l :: ls)).toList = l.toList ++ '\n' :: (unlines ls).toList := by
      rw [unlines, List.map_cons, String.join_cons, String.toList_append, String.toList_append,
        List.append_assoc]
      rfl
    have hsplit : (l.toList ++ '\n' :: (unlines ls).toList).splitOn '\n' =
        l.toList.splitOn '\n' ++ (unlines ls).toList.splitOn '\n' :=
      List.splitOnP_append_cons _ _ (beq_self_eq_true '\n')
    rw [hcons, hsplit, List.splitOn_eq_singleton hl, ih hls, List.map_cons, List.cons_append,
      List.nil_append, List.cons_append]

/-- The text form of tokens is a line for each of them, in order and each with its line end. -/
theorem Token.splitOn_renderAll_text (ts : List Token) (p : Path) :
    (renderAll ts p .text).toList.splitOn '\n' = ts.map (fun t => t.renderLine.toList) ++ [[]] := by
  refine (splitOn_unlines ?_).trans (by rw [List.map_map]; rfl)
  exact List.forall_mem_map.mpr fun t _ => t.newline_not_mem_renderLine

/-- Two lists of tokens have the same text form if, and only if, they are the same, whichever files
they are from.  The text form is a line for each token, in order and each with its line end. -/
theorem Token.renderAll_text_lossless (ts us : List Token) (p q : Path) :
    (renderAll ts p .text = renderAll us q .text ↔ ts = us) ∧
    (renderAll ts p .text).toList.splitOn '\n' = ts.map (fun t => t.renderLine.toList) ++ [[]] := by
  have hline : Function.Injective fun t : Token => t.renderLine.toList := fun t u h =>
    renderLine_injective (String.toList_inj.mp h)
  refine ⟨⟨fun h => ?_, fun h => by rw [h]; rfl⟩, splitOn_renderAll_text ts p⟩
  have hsplit := congrArg (fun text => text.toList.splitOn '\n') h
  simp only [splitOn_renderAll_text, List.append_cancel_right_eq] at hsplit
  exact List.map_injective_iff.mpr hline hsplit

end HeaderLint
