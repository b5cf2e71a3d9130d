import HeaderLint.Text.Search

/-!
# Line ends with a carriage return

`withReturns` puts a carriage return before every line feed of a text, as some systems end
their lines.  The lines of the text stay the same except for carriage returns at their
ends, of which `lines` drops one (`lines_append_newline`).  So what does not see a carriage
return at the end of a line sees the same lines (`map_lines_withReturns`).

Facts about lines go by `line_induction`: a text is a single line without an end, or a
line, a line feed and a text.
-/

namespace HeaderLint.Text

/-- The text with a carriage return before every line feed. -/
def withReturns (cs : List Char) : List Char :=
  cs.flatMap fun c => if c = '\n' then ['\r', '\n'] else [c]

theorem withReturns_nil : withReturns [] = [] := rfl

theorem withReturns_newline (cs : List Char) :
    withReturns ('\n' :: cs) = '\r' :: '\n' :: withReturns cs := rfl

theorem withReturns_cons {c : Char} (h : c ≠ '\n') (cs : List Char) :
    withReturns (c :: cs) = c :: withReturns cs := by
  rw [withReturns, List.flatMap_cons, if_neg h]
  rfl

theorem withReturns_append (cs ds : List Char) :
    withReturns (cs ++ ds) = withReturns cs ++ withReturns ds := List.flatMap_append

/-- A text on one line stays the same. -/
theorem withReturns_of_newline_not_mem {cs : List Char} (h : '\n' ∉ cs) :
    withReturns cs = cs := by
  induction cs with
  | nil => rfl
  | cons c cs ih =>
    obtain ⟨hc, hcs⟩ := List.ne_and_not_mem_of_not_mem_cons h
    rw [withReturns_cons (Ne.symm hc), ih hcs]

/-- A first character that ends no line is the same. -/
theorem head?_withReturns {cs : List Char} {d : Char} (hr : d ≠ '\r') (hn : d ≠ '\n') :
    (withReturns cs).head? = some d ↔ cs.head? = some d := by
  cases cs with
  | nil => rfl
  | cons c cs =>
    by_cases hc : c = '\n'
    · rw [hc, withReturns_newline]
      simp [Ne.symm hr, Ne.symm hn]
    · rw [withReturns_cons hc]
      rfl

/-! ## Lines -/

/-- A text is a line without an end, or a line with its end and a text. -/
@[elab_as_elim]
theorem line_induction {motive : List Char → Prop}
    (last : ∀ line, '\n' ∉ line → motive line)
    (line : ∀ line rest, '\n' ∉ line → motive rest → motive (line ++ '\n' :: rest))
    (cs : List Char) : motive cs := by
  have h : ∀ front, '\n' ∉ front → motive (front ++ cs) := by
    induction cs with
    | nil =>
      intro front hfront
      rw [List.append_nil]
      exact last front hfront
    | cons c cs ih =>
      intro front hfront
      by_cases hc : c = '\n'
      · rw [hc]
        exact line front cs hfront (ih [] List.not_mem_nil)
      · rw [List.append_cons]
        refine ih (front ++ [c]) ?_
        rw [List.mem_append, List.mem_singleton, not_or]
        exact ⟨hfront, Ne.symm hc⟩
  exact h [] List.not_mem_nil

/-- A text that is one line without its end. -/
structure IsLine (text : List Char) : Prop where
  /-- The last line of a text is not empty. -/
  ne_nil : text ≠ []
  /-- The text stays on its line. -/
  plain : '\n' ∉ text

theorem IsLine.lines_eq {line : List Char} (h : IsLine line) : lines line = [line] := by
  have hsplit : line.splitOn '\n' = [line] := by
    refine List.splitOnP_eq_singleton ?_
    intro c hc
    exact beq_false_of_ne fun hn => h.plain (hn ▸ hc)
  rw [lines, hsplit, List.dropLast_singleton, List.getLast?_singleton, Option.filter_some,
    if_pos (by simpa using h.ne_nil)]
  rfl

theorem lines_append_newline {line : List Char} (h : '\n' ∉ line) (rest : List Char) :
    lines (line ++ '\n' :: rest) = dropReturn line :: lines rest := by
  have hsplit : (line ++ '\n' :: rest).splitOn '\n' = line :: rest.splitOn '\n' := by
    refine List.splitOnP_append_cons_of_forall_mem ?_ '\n' rfl rest
    intro c hc
    exact beq_false_of_ne fun hn => h (hn ▸ hc)
  obtain ⟨first, others, hrest⟩ := List.exists_cons_of_ne_nil
    (show rest.splitOn '\n' ≠ [] from List.splitOnP_ne_nil _ _)
  rw [lines, lines, hsplit, hrest, List.dropLast_cons_cons, List.getLast?_cons_cons]
  rfl

/-- Lines with their ends. -/
def ended (texts : List (List Char)) : List Char := texts.flatMap (· ++ ['\n'])

theorem ended_nil : ended [] = [] := rfl

theorem ended_cons (text : List Char) (texts : List (List Char)) :
    ended (text :: texts) = text ++ ['\n'] ++ ended texts := rfl

theorem ended_append (texts texts' : List (List Char)) :
    ended (texts ++ texts') = ended texts ++ ended texts' := List.flatMap_append

theorem newline_not_mem_concat_return {line : List Char} (h : '\n' ∉ line) :
    '\n' ∉ line ++ ['\r'] := by
  rw [List.mem_append, List.mem_singleton, not_or]
  exact ⟨h, by simp⟩

theorem IsLine.concat_return {line : List Char} (h : IsLine line) : IsLine (line ++ ['\r']) :=
  ⟨List.concat_ne_nil _ _, newline_not_mem_concat_return h.plain⟩

theorem dropReturn_concat (line : List Char) : dropReturn (line ++ ['\r']) = line := by
  rw [dropReturn, List.getLast?_concat, if_pos rfl, List.dropLast_concat]

section
variable {α : Type} {f : List Char → α} (hf : ∀ line, f (dropReturn line) = f line)
include hf

theorem apply_concat_return (line : List Char) : f (line ++ ['\r']) = f line := by
  rw [← hf, dropReturn_concat]

/-- What does not see a carriage return at the end of a line finds the same lines. -/
theorem map_lines_withReturns (cs : List Char) :
    (lines (withReturns cs)).map f = (lines cs).map f := by
  induction cs using line_induction with
  | last line h => rw [withReturns_of_newline_not_mem h]
  | line line rest h ih =>
    rw [withReturns_append, withReturns_of_newline_not_mem h, withReturns_newline,
      List.append_cons, lines_append_newline (newline_not_mem_concat_return h), dropReturn_concat,
      lines_append_newline h, List.map_cons, List.map_cons, ih, hf]

/-- The lines of lines with their ends and a last line without. -/
theorem map_lines_ended {texts : List (List Char)} (h : ∀ text ∈ texts, '\n' ∉ text)
    {last : List Char} (hlast : IsLine last) :
    (lines (ended texts ++ last)).map f = texts.map f ++ [f last] := by
  induction texts with
  | nil =>
    rw [ended_nil, List.nil_append, hlast.lines_eq]
    rfl
  | cons text texts ih =>
    obtain ⟨htext, htexts⟩ := List.forall_mem_cons.mp h
    rw [ended_cons, List.append_assoc, List.append_assoc, List.singleton_append,
      lines_append_newline htext, List.map_cons, hf, ih htexts]
    rfl

/-- The lines of lines that are joined. -/
theorem map_lines_intercalate {texts : List (List Char)}
    (h : ∀ text ∈ texts, IsLine text) :
    (lines (['\n'].intercalate texts)).map f = texts.map f := by
  induction texts with
  | nil => rfl
  | cons text texts ih =>
    obtain ⟨htext, htexts⟩ := List.forall_mem_cons.mp h
    cases texts with
    | nil => rw [List.intercalate_singleton, htext.lines_eq]
    | cons next texts =>
      rw [List.intercalate_cons_cons, List.append_assoc, List.singleton_append,
        lines_append_newline htext.plain, List.map_cons, hf, ih htexts]
      rfl

end

end HeaderLint.Text
