import HeaderLint.FileTree.Edit
import HeaderLint.Proofs.Path.Below

/-!
# The steps of a path

The steps of a path are the segments that lead somewhere.  They are read off the components
(`Path.steps_eq`), and so is whether the path is absolute (`Path.isAbsolute_iff`).  So two paths
with the same components lead through the same steps from the same place.

Not every path ends with a step.  A slash or a full stop at the end leads nowhere, but what stands
before it must be a directory.  The candidates of pairing end with a step (`Path.endsInStep_join`).
-/

namespace HeaderLint

/-- The segment leads somewhere. -/
def isStep (segment : String) : Bool := segment != "" && segment != "."

theorem isStep_iff {segment : String} : isStep segment = true ↔ segment ≠ "" ∧ segment ≠ "." := by
  rw [isStep, Bool.and_eq_true, bne_iff_ne, bne_iff_ne]

theorem isStep_eq_false_iff {segment : String} :
    isStep segment = false ↔ segment = "" ∨ segment = "." := by
  rw [isStep, Bool.and_eq_false_iff, bne_eq_false_iff_eq, bne_eq_false_iff_eq]

theorem IsEntryName.isStep {name : String} (h : IsEntryName name) : isStep name = true :=
  isStep_iff.mpr ⟨h.ne_empty, h.ne_here⟩

namespace Path

/-! ## Steps and components -/

/-- The step of a component. -/
def Component.step? : Component → Option String
  | .up => some ".."
  | .name s => some s
  | _ => none

theorem Component.bind_step?_ofSegment? (segment : String) :
    (ofSegment? segment).bind step? = if isStep segment then some segment else none := by
  by_cases h : segment = "" ∨ segment = "."
  · rw [isStep_eq_false_iff.mpr h, ofSegment?, if_pos h]
    rfl
  · have hstep : HeaderLint.isStep segment = true := isStep_iff.mpr (not_or.mp h)
    rw [hstep, ofSegment?, if_neg h]
    split
    · next hup => simp [hup, step?]
    · rfl

theorem steps_eq (p : Path) : p.steps = p.components.filterMap Component.step? := by
  have hfront : (if p.isAbsolute then [Component.root]
      else if p.segments.head? = some "." then [.here] else []).filterMap Component.step? = [] := by
    split
    · rfl
    · split <;> rfl
  have hfilter : (fun s => (Component.ofSegment? s).bind Component.step?) =
      Option.guard fun s => isStep s := by
    funext s
    rw [Component.bind_step?_ofSegment?, Option.guard]
  rw [components, List.filterMap_append, hfront, List.nil_append, List.filterMap_filterMap, hfilter,
    List.filterMap_eq_filter]
  rfl

theorem isAbsolute_iff (p : Path) : p.isAbsolute = true ↔ p.components.head? = some .root := by
  have hsegment : ∀ s, Component.ofSegment? s ≠ some .root := by
    intro s hroot
    rw [Component.ofSegment?] at hroot
    split at hroot
    · cases hroot
    · split at hroot
      · cases hroot
      · cases hroot
  have hrest : (p.segments.filterMap Component.ofSegment?).head? ≠ some .root := by
    intro h
    obtain ⟨s, -, hs⟩ := List.mem_filterMap.mp (List.mem_of_head? h)
    exact hsegment s hs
  rw [components]
  by_cases h : p.isAbsolute = true
  · simp [h]
  · rw [if_neg h]
    split
    · simp [h]
    · simpa [h] using hrest

section
variable {p q : Path}

theorem steps_eq_of_components_eq (h : p.components = q.components) : p.steps = q.steps := by
  rw [steps_eq, steps_eq, h]

theorem isAbsolute_eq_of_components_eq (h : p.components = q.components) :
    p.isAbsolute = q.isAbsolute := by
  rw [Bool.eq_iff_iff, isAbsolute_iff, isAbsolute_iff, h]

/-! ## The last step -/

/-- The last segment of the path leads somewhere. -/
def EndsInStep (p : Path) : Prop := ∃ last, p.segments.getLast? = some last ∧ isStep last = true

theorem EndsInStep.text_ne_empty (h : p.EndsInStep) : p.text ≠ "" := by
  obtain ⟨text⟩ := p
  rintro rfl
  have hsegments : Path.segments ⟨""⟩ = [""] := by decide +kernel
  obtain ⟨last, hlast, hstep⟩ := h
  rw [hsegments] at hlast
  cases hlast
  exact absurd hstep (by decide)

/-- A path that is joined with a name ends with it. -/
theorem getLast?_segments_join {name : String} (h : IsEntryName name) (p : Path) :
    (p.join ⟨name⟩).segments.getLast? = some name := by
  rw [join]
  split
  · rw [segments_entryName h, List.getLast?_singleton]
  · split
    · next hslash =>
      obtain ⟨s, rfl⟩ := exists_slash hslash
      rw [segments_slash, segments_entryName h, List.getLast?_concat]
    · rw [segments_slash, segments_entryName h, List.getLast?_concat]

theorem endsInStep_join {name : String} (h : IsEntryName name) (p : Path) :
    (p.join ⟨name⟩).EndsInStep :=
  ⟨name, getLast?_segments_join h p, h.isStep⟩

end

end Path

end HeaderLint
