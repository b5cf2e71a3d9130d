import Mathlib.Algebra.GroupWithZero.Nat
import HeaderLint.Proofs.Json.Pretty
import HeaderLint.Report.Output

/-!
# The summary agrees with the report

The numbers of a summary fit each other and the report they are taken from
(`Summary.IsOf`, `Summary.isOf_ofReport`).

Both forms of a report end with a summary, and no other numbers can be read off the same text
(`Summary.isOf_of_isShownIn`).  The text form shows the summary on its last line, where each number
stops at the space behind it.  In the data form it is the last field of the object.
-/

namespace HeaderLint

open Text

/-! ## Numbers -/

namespace Report

variable (r : Report)

theorem length_violations :
    r.violations.length = (r.files.map fun f => f.violations.length).sum := List.length_flatMap

theorem functionCount_eq_sum : r.functionCount = (r.files.map FileReport.functionCount).sum := by
  rw [functionCount, List.sum_eq_foldr, List.foldr_map]

theorem hasViolations_eq_true_iff : r.hasViolations = true ↔ r.violations ≠ [] := by
  simp only [hasViolations, violations, List.any_eq_true, Bool.not_eq_true',
    List.isEmpty_eq_false_iff, ne_eq, List.flatMap_eq_nil_iff, not_forall, exists_prop]

/-- Every violation has one of the three severities. -/
theorem countAt_add_countAt_add_countAt :
    r.countAt .error + r.countAt .warning + r.countAt .info = r.violations.length := by
  simp only [countAt]
  induction r.violations with
  | nil => rfl
  | cons v vs ih =>
    cases h : v.severity <;> simp [h] <;> omega

end Report

/-- The numbers fit each other and the report.  The text form has no number of functions. -/
structure Summary.IsOf (s : Summary) (form : OutputForm) (r : Report) : Prop where
  files : s.files = r.files.length
  functions : form = .json → s.functions = (r.files.map FileReport.functionCount).sum
  violations : s.violations = (r.files.map fun f => f.violations.length).sum
  severities : s.errors + s.warnings + s.info = s.violations
  errors : s.errors = r.violations.countP fun v => v.severity == .error
  warnings : s.warnings = r.violations.countP fun v => v.severity == .warning
  info : s.info = r.violations.countP fun v => v.severity == .info

theorem Summary.isOf_ofReport (form : OutputForm) (r : Report) : (ofReport r).IsOf form r where
  files := rfl
  functions _ := r.functionCount_eq_sum
  violations := r.length_violations
  severities := r.countAt_add_countAt_add_countAt
  errors := List.countP_eq_length_filter.symm
  warnings := List.countP_eq_length_filter.symm
  info := List.countP_eq_length_filter.symm

/-! ## The line of the summary -/

theorem toList_counted (n : Nat) (one many : String) :
    (counted n one many).toList = n.repr.toList ++ ' ' :: (if n = 1 then one else many).toList := by
  have hspace : " ".toList = [' '] := rfl
  rw [counted, String.toList_append, String.toList_append, hspace, List.append_assoc,
    List.singleton_append]

/-- A counted noun tells the number and ends by itself. -/
theorem counted_append_inj {n m : Nat} {one many : String} {rest rest' : List Char}
    (h : (counted n one many).toList ++ rest = (counted m one many).toList ++ rest') :
    n = m ∧ rest = rest' := by
  simp only [toList_counted, List.append_assoc, List.cons_append] at h
  obtain ⟨rfl, htail⟩ := isDelimited_repr n m _ _ (endsNumber_cons (by decide) _)
    (endsNumber_cons (by decide) _) h
  exact ⟨rfl, List.append_cancel_left (List.cons.inj htail).2⟩

theorem newline_not_mem_repr (n : Nat) : '\n' ∉ n.repr.toList := fun h =>
  absurd (isDigit_of_mem_repr h) (by decide)

theorem newline_not_mem_counted (n : Nat) {one many : String} (hone : '\n' ∉ one.toList)
    (hmany : '\n' ∉ many.toList) : '\n' ∉ (counted n one many).toList := by
  rw [toList_counted, List.mem_append, List.mem_cons]
  rintro (h | h | h)
  · exact newline_not_mem_repr n h
  · exact absurd h (by decide)
  · split at h
    · exact hone h
    · exact hmany h

namespace Summary

/-- The numbers that the line shows. -/
def shown (s : Summary) : List Nat := [s.files, s.violations, s.errors, s.warnings, s.info]

theorem newline_not_mem_render (s : Summary) : '\n' ∉ s.render.toList := by
  simp only [render, String.toList_append, List.mem_append, not_or]
  refine ⟨⟨⟨⟨⟨⟨⟨⟨⟨?files, ?_⟩, ?violations⟩, ?_⟩, ?errors⟩, ?_⟩, ?warnings⟩, ?_⟩, ?info⟩, ?_⟩
  case info => exact newline_not_mem_repr s.info
  case files => exact newline_not_mem_counted s.files (by decide) (by decide)
  case violations => exact newline_not_mem_counted s.violations (by decide) (by decide)
  case errors => exact newline_not_mem_counted s.errors (by decide) (by decide)
  case warnings => exact newline_not_mem_counted s.warnings (by decide) (by decide)
  all_goals decide

theorem shown_eq_of_render_eq {s t : Summary} (h : s.render = t.render) : s.shown = t.shown := by
  have hlists := congrArg String.toList h
  simp only [render, String.toList_append, List.append_assoc] at hlists
  obtain ⟨hfiles, h⟩ := counted_append_inj hlists
  obtain ⟨hviolations, h⟩ := counted_append_inj (List.append_cancel_left h)
  obtain ⟨herrors, h⟩ := counted_append_inj (List.append_cancel_left h)
  obtain ⟨hwarnings, h⟩ := counted_append_inj (List.append_cancel_left h)
  have hend : EndsNumber " info".toList := endsNumber_cons (by decide) _
  obtain ⟨hinfo, -⟩ := isDelimited_repr _ _ _ _ hend hend (List.append_cancel_left h)
  rw [shown, shown, hfiles, hviolations, herrors, hwarnings, hinfo]

end Summary

/-! ## The last line -/

theorem unlines_append (ls ms : List String) : unlines (ls ++ ms) = unlines ls ++ unlines ms := by
  rw [unlines, unlines, unlines, List.map_append, String.join_append]

/-- Read backwards the last line comes first. -/
theorem reverse_unlines_concat (ls : List String) (l : String) :
    (unlines (ls ++ [l])).toList.reverse =
      '\n' :: (l.toList.reverse ++ (unlines ls).toList.reverse) := by
  have hline : (unlines [l]).toList = l.toList ++ ['\n'] := by
    rw [unlines, List.map_singleton, String.toList_join, List.flatMap_singleton,
      String.toList_append]
    rfl
  rw [unlines_append, String.toList_append, hline, List.reverse_append, List.reverse_concat,
    List.cons_append]

/-- The characters of the last line. -/
def lastLine (text : List Char) : List Char := (text.reverse.tail.takeWhile (· != '\n')).reverse

theorem lastLine_unlines (ls : List String) {l : String} (hl : '\n' ∉ l.toList) :
    lastLine (unlines (ls ++ [l])).toList = l.toList := by
  have hline : ∀ c ∈ l.toList.reverse, (c != '\n') = true := by
    intro c hc
    rw [bne_iff_ne]
    exact fun h => hl (h ▸ List.mem_reverse.mp hc)
  have habove : (unlines ls).toList.reverse.takeWhile (· != '\n') = [] := by
    rcases List.eq_nil_or_concat ls with rfl | ⟨ls, l, rfl⟩
    · rfl
    · rw [List.concat_eq_append, reverse_unlines_concat]
      rfl
  rw [lastLine, reverse_unlines_concat, List.tail_cons, List.takeWhile_append_of_pos hline, habove,
    List.append_nil, List.reverse_reverse]

/-! ## What a text shows -/

namespace Summary

/-- The text ends with the summary. -/
def IsShownIn (s : Summary) (text : String) : OutputForm → Prop
  | .text => ∃ above, text = unlines (above ++ [s.render])
  | .json => ∃ fields, text = (Json.obj (fields ++ [("summary", s.toJson)])).pretty

theorem toJson_injective {s t : Summary} (h : s.toJson = t.toJson) : s = t := by
  cases s
  cases t
  simpa only [toJson, Json.obj.injEq, List.cons.injEq, Prod.mk.injEq, Json.num.injEq, true_and,
    and_true, mk.injEq] using h

theorem isShownIn_render (r : Report) (form : OutputForm) :
    (ofReport r).IsShownIn (r.render form) form := by
  cases form with
  | text => exact ⟨_, rfl⟩
  | json => exact ⟨r.fields, rfl⟩

theorem shown_eq_of_isShownIn_text {s t : Summary} {text : String} (hs : s.IsShownIn text .text)
    (ht : t.IsShownIn text .text) : s.shown = t.shown := by
  obtain ⟨above, rfl⟩ := hs
  obtain ⟨above', h⟩ := ht
  have hlines := congrArg (fun text => lastLine text.toList) h
  simp only [lastLine_unlines _ s.newline_not_mem_render,
    lastLine_unlines _ t.newline_not_mem_render] at hlines
  exact shown_eq_of_render_eq (String.toList_inj.mp hlines)

theorem eq_of_isShownIn_json {s t : Summary} {text : String} (hs : s.IsShownIn text .json)
    (ht : t.IsShownIn text .json) : s = t := by
  obtain ⟨fields, rfl⟩ := hs
  obtain ⟨fields', h⟩ := ht
  have hfields := Json.obj.inj (Json.pretty_injective h)
  have hlast := congrArg List.getLast? hfields
  rw [List.getLast?_concat, List.getLast?_concat, Option.some.injEq, Prod.mk.injEq] at hlast
  exact toJson_injective hlast.2

/-- Whatever summary is read off the text of a report is a summary of it. -/
theorem isOf_of_isShownIn {r : Report} {form : OutputForm} {s : Summary}
    (h : s.IsShownIn (r.render form) form) : s.IsOf form r := by
  have hof := isOf_ofReport form r
  cases form with
  | text =>
    have hshown := shown_eq_of_isShownIn_text h (isShownIn_render r .text)
    simp only [shown, List.cons.injEq, and_true] at hshown
    obtain ⟨hfiles, hviolations, herrors, hwarnings, hinfo⟩ := hshown
    exact
      { files := hfiles ▸ hof.files
        functions := nofun
        violations := hviolations ▸ hof.violations
        severities := by rw [herrors, hwarnings, hinfo, hviolations, hof.severities]
        errors := herrors ▸ hof.errors
        warnings := hwarnings ▸ hof.warnings
        info := hinfo ▸ hof.info }
  | json =>
    rw [eq_of_isShownIn_json h (isShownIn_render r .json)]
    exact hof

end Summary

end HeaderLint
