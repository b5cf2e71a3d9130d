import HeaderLint.Proofs.Path.Steps

/-!
# Names and stems

The name of a path is its last segment when that is a step (`Path.fileName?_eq`), and it can be the
name of an entry.  A name is cut at its last full stop, so a name that is put together from a stem
and an extension without a full stop comes apart again (`Path.splitName_append`), and the stem of
a path makes the name of an entry with any other extension (`Path.isEntryName_stem_append`).
-/

namespace HeaderLint

namespace Path

/-! ## Names -/

/-- The name of a path whose last segment is a step. -/
theorem fileName?_eq {p : Path} {last : String} (hlast : p.segments.getLast? = some last)
    (hstep : isStep last = true) :
    p.fileName? = if last = ".." then none else some last := by
  obtain ⟨front, hfront⟩ := List.getLast?_eq_some_iff.mp hlast
  have hsegment : Component.ofSegment? last =
      some (if last = ".." then .up else .name last) := by
    rw [Component.ofSegment?, if_neg (not_or.mpr (isStep_iff.mp hstep))]
    exact (apply_ite some _ _ _).symm
  rw [fileName?, components, hfront, List.filterMap_append, List.filterMap_cons_some hsegment,
    List.filterMap_nil, ← List.append_assoc, List.getLast?_concat]
  split
  · next s hs =>
    split at hs
    · cases hs
    · next hup =>
      cases hs
      rw [if_neg hup]
  · next hs =>
    split at hs
    · next hup => rw [if_pos hup]
    · next hup => exact absurd rfl (hs last)

theorem isEntryName_of_ofSegment? {segment name : String}
    (h : Component.ofSegment? segment = some (.name name)) (hslash : '/' ∉ segment.toList) :
    IsEntryName name := by
  rw [Component.ofSegment?] at h
  split at h
  · cases h
  · next hstep =>
    split at h
    · cases h
    · next hup =>
      cases h
      exact ⟨(not_or.mp hstep).1, (not_or.mp hstep).2, hup, hslash⟩

/-- The names in a path can be those of entries. -/
theorem isEntryName_of_mem_components {p : Path} {name : String} (h : .name name ∈ p.components) :
    IsEntryName name := by
  rw [components] at h
  rcases List.mem_append.mp h with hfront | hsegment
  · split at hfront
    · simp at hfront
    · split at hfront
      · simp at hfront
      · cases hfront
  · obtain ⟨segment, hsegment, hname⟩ := List.mem_filterMap.mp hsegment
    exact isEntryName_of_ofSegment? hname (slash_not_mem_of_mem_segments hsegment)

theorem isEntryName_of_fileName? {p : Path} {name : String} (h : p.fileName? = some name) :
    IsEntryName name := by
  rw [fileName?] at h
  split at h
  · next hlast =>
    cases h
    exact isEntryName_of_mem_components (List.mem_of_getLast? hlast)
  · cases h

/-! ## Stems -/

/-- The stem of a name is a part of it, and has a character. -/
theorem splitName_fst {name : String} (h : name ≠ "") :
    (splitName name).1 ≠ "" ∧ (splitName name).1.toList ⊆ name.toList := by
  rw [splitName]
  split
  · exact ⟨h, List.Subset.refl _⟩
  · next hbefore =>
    refine ⟨by simpa using hbefore, fun c hc => ?_⟩
    rw [String.toList_ofList, List.mem_reverse] at hc
    exact List.mem_reverse.mp (List.mem_of_mem_drop hc)

theorem ne_empty_of_stem? {p : Path} {stem : String} (h : p.stem? = some stem) : stem ≠ "" := by
  obtain ⟨name, hname, rfl⟩ := Option.map_eq_some_iff.mp h
  exact (splitName_fst (isEntryName_of_fileName? hname).ne_empty).1

/-- The parts of a name with one full stop before its extension. -/
theorem splitName_append {stem extension : String} (hstem : stem ≠ "")
    (hdot : '.' ∉ extension.toList) :
    splitName (stem ++ "." ++ extension) = (stem, some extension) := by
  have hbackwards : (stem ++ "." ++ extension).toList.reverse =
      extension.toList.reverse ++ '.' :: stem.toList.reverse := by
    rw [String.toList_append, String.toList_append, List.reverse_append, List.reverse_append]
    rfl
  have hafter : (extension.toList.reverse ++ '.' :: stem.toList.reverse).takeWhile (· != '.') =
      extension.toList.reverse := by
    rw [List.takeWhile_append_of_pos, List.takeWhile_cons_of_neg (by decide), List.append_nil]
    intro c hc
    exact bne_iff_ne.mpr fun heq => hdot (heq ▸ List.mem_reverse.mp hc)
  have hbefore : (extension.toList.reverse ++ '.' :: stem.toList.reverse).drop
      (extension.toList.reverse.length + 1) = stem.toList.reverse := by
    rw [← List.drop_drop, List.drop_left]
    rfl
  rw [splitName, hbackwards, hafter, hbefore]
  split
  · next hnil =>
    rw [List.reverse_eq_nil_iff, String.toList_eq_nil_iff] at hnil
    exact absurd hnil hstem
  · rw [List.reverse_reverse, List.reverse_reverse, String.ofList_toList, String.ofList_toList]

/-- A stem has characters and no slash, so it makes a name with any extension. -/
theorem isEntryName_stem_append {p : Path} {stem extension : String} (hstem : p.stem? = some stem)
    (hne : extension ≠ "") (hslash : '/' ∉ extension.toList) :
    IsEntryName (stem ++ "." ++ extension) := by
  obtain ⟨name, hname, rfl⟩ := Option.map_eq_some_iff.mp hstem
  have hentry := isEntryName_of_fileName? hname
  obtain ⟨hstem, hsubset⟩ := splitName_fst hentry.ne_empty
  have hlength : 2 < ((splitName name).1 ++ "." ++ extension).toList.length := by
    have hpos : ∀ {s : String}, s ≠ "" → 0 < s.toList.length := fun hs =>
      List.length_pos_iff.mpr (mt String.toList_eq_nil_iff.mp hs)
    have h₁ := hpos hstem
    have h₂ := hpos hne
    have hdot : ".".toList.length = 1 := rfl
    rw [String.toList_append, String.toList_append, List.length_append, List.length_append, hdot]
    omega
  have hlong : ∀ s : String, s.toList.length ≤ 2 → (splitName name).1 ++ "." ++ extension ≠ s := by
    rintro s hs rfl
    omega
  refine ⟨hlong "" (by decide), hlong "." (by decide), hlong ".." (by decide), ?_⟩
  rw [String.toList_append, String.toList_append, List.mem_append, List.mem_append]
  rintro ((hmem | hmem) | hmem)
  · exact hentry.slash_not_mem (hsubset hmem)
  · exact absurd hmem (by decide)
  · exact hslash hmem

end Path

end HeaderLint
