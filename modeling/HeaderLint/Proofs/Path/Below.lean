import HeaderLint.Path

/-!
# Paths below a path

An entry of a directory has a name that is one component wherever it stands
(`IsEntryName`).  The path of the entry has the components of the directory and that name behind
them (`Path.components_join`), whether the text of the directory ends with a slash or not.  So
the names from a directory to a path below it can be read off the two paths (`Path.namesBelow`).
-/

namespace HeaderLint

/-- The name can be that of an entry of a directory. -/
structure IsEntryName (name : String) : Prop where
  /-- The name has a character. -/
  ne_empty : name ≠ ""
  /-- The name is not that of the directory itself. -/
  ne_here : name ≠ "."
  /-- The name is not that of the directory above. -/
  ne_up : name ≠ ".."
  /-- The name has no slash. -/
  slash_not_mem : '/' ∉ name.toList

instance (name : String) : Decidable (IsEntryName name) :=
  decidable_of_iff (name ≠ "" ∧ name ≠ "." ∧ name ≠ ".." ∧ '/' ∉ name.toList)
    ⟨fun ⟨h₁, h₂, h₃, h₄⟩ => ⟨h₁, h₂, h₃, h₄⟩, fun ⟨h₁, h₂, h₃, h₄⟩ => ⟨h₁, h₂, h₃, h₄⟩⟩

namespace Path

/-- The name of a component that is one. -/
def Component.name? : Component → Option String
  | .name s => some s
  | _ => none

/-- The names from a path to one below it. -/
def namesBelow (root p : Path) : List String :=
  (p.components.drop root.components.length).filterMap Component.name?

theorem namesBelow_of_components {root p : Path} {names : List String}
    (h : p.components = root.components ++ names.map .name) : root.namesBelow p = names := by
  rw [namesBelow, h, List.drop_left, List.filterMap_map]
  exact List.filterMap_some

/-! ## Segments -/

/-- A slash in a text parts the segments before it from those behind it. -/
theorem segments_slash (s t : String) :
    segments ⟨s ++ "/" ++ t⟩ = segments ⟨s⟩ ++ segments ⟨t⟩ := by
  have htext : (s ++ "/" ++ t).toList = s.toList ++ '/' :: t.toList := by simp
  have hsplit : (s.toList ++ '/' :: t.toList).splitOn '/' =
      s.toList.splitOn '/' ++ t.toList.splitOn '/' :=
    List.splitOnP_append_cons _ _ (beq_self_eq_true '/')
  rw [segments, segments, segments, htext, hsplit, List.map_append]

theorem segments_ne_nil (p : Path) : p.segments ≠ [] := by
  rw [segments, List.splitOn]
  simp

theorem slash_not_mem_of_mem_splitOn {cs segment : List Char} (h : segment ∈ cs.splitOn '/') :
    '/' ∉ segment := by
  induction cs generalizing segment with
  | nil =>
    obtain rfl : segment = [] := by simpa [List.splitOn] using h
    exact List.not_mem_nil
  | cons c cs ih =>
    rw [List.splitOn, List.splitOnP_cons_eq_if_modifyHead] at h
    split at h
    · rcases List.mem_cons.mp h with rfl | h
      · exact List.not_mem_nil
      · exact ih h
    · next hc =>
      rw [List.splitOn] at ih
      cases hsplit : cs.splitOnP (· == '/') with
      | nil =>
        rw [hsplit] at h
        cases h
      | cons first rest =>
        rw [hsplit] at h ih
        rcases List.mem_cons.mp h with rfl | h
        · rw [List.mem_cons, not_or]
          exact ⟨fun hslash => hc (beq_iff_eq.mpr hslash.symm), ih List.mem_cons_self⟩
        · exact ih (List.mem_cons_of_mem first h)

theorem slash_not_mem_of_mem_segments {p : Path} {segment : String} (h : segment ∈ p.segments) :
    '/' ∉ segment.toList := by
  obtain ⟨cs, hcs, rfl⟩ := List.mem_map.mp h
  rw [String.toList_ofList]
  exact slash_not_mem_of_mem_splitOn hcs

theorem head?_segments_slash (s t : String) :
    (segments ⟨s ++ "/" ++ t⟩).head? = (segments ⟨s⟩).head? := by
  obtain ⟨segment, rest, hsegments⟩ := List.exists_cons_of_ne_nil (segments_ne_nil ⟨s⟩)
  rw [segments_slash, hsegments]
  rfl

theorem segments_entryName {name : String} (h : IsEntryName name) : segments ⟨name⟩ = [name] := by
  rw [segments, List.splitOn_eq_singleton h.slash_not_mem]
  simp

theorem ofSegment?_entryName {name : String} (h : IsEntryName name) :
    Component.ofSegment? name = some (.name name) := by
  rw [Component.ofSegment?, if_neg (not_or.mpr ⟨h.ne_empty, h.ne_here⟩), if_neg h.ne_up]

/-! ## Components -/

theorem isAbsolute_slash (s t u : String) :
    isAbsolute ⟨s ++ "/" ++ t⟩ = isAbsolute ⟨s ++ "/" ++ u⟩ := by
  simp only [isAbsolute, String.toList_append]
  cases s.toList <;> rfl

theorem components_slash_append (s t : String) :
    components ⟨s ++ "/" ++ t⟩ =
      components ⟨s ++ "/"⟩ ++ (segments ⟨t⟩).filterMap Component.ofSegment? := by
  have hempty : components ⟨s ++ "/"⟩ = components ⟨s ++ "/" ++ ""⟩ := by rw [String.append_empty]
  rw [hempty, components, components, head?_segments_slash, head?_segments_slash,
    isAbsolute_slash s t "", segments_slash, segments_slash]
  simp [Component.ofSegment?, segments]

/-- A slash at the end of a path makes no component. -/
theorem components_slash {s : String} (h : s ≠ "") : components ⟨s ++ "/"⟩ = components ⟨s⟩ := by
  have hempty : components ⟨s ++ "/"⟩ = components ⟨s ++ "/" ++ ""⟩ := by rw [String.append_empty]
  have habsolute : isAbsolute ⟨s ++ "/" ++ ""⟩ = isAbsolute ⟨s⟩ := by
    obtain ⟨c, cs, hcs⟩ : ∃ c cs, s.toList = c :: cs :=
      List.exists_cons_of_ne_nil (by simpa using h)
    simp [isAbsolute, hcs]
  rw [hempty, components, components, head?_segments_slash, habsolute, segments_slash]
  simp [Component.ofSegment?, segments]

theorem isAbsolute_entryName {name : String} (h : IsEntryName name) :
    isAbsolute ⟨name⟩ = false := by
  rw [isAbsolute, decide_eq_false_iff_not]
  intro hslash
  exact h.slash_not_mem (List.mem_of_head? hslash)

/-- A path whose text ends with a slash is what stands before and the slash. -/
theorem exists_slash {p : Path} (h : p.text.toList.getLast? = some '/') :
    ∃ s, p = ⟨s ++ "/"⟩ := by
  obtain ⟨cs, hcs⟩ := List.getLast?_eq_some_iff.mp h
  refine ⟨String.ofList cs, ?_⟩
  obtain ⟨text⟩ := p
  rw [Path.mk.injEq, ← String.toList_inj, hcs]
  simp

/-- A relative path adds its segments to the components of what it is joined to. -/
theorem components_join_relative {p q : Path} (hp : p.text ≠ "") (hq : q.isAbsolute = false) :
    (p.join q).components = p.components ++ q.segments.filterMap Component.ofSegment? := by
  have hempty : p.text.isEmpty = false := by simpa using hp
  rw [join, hq, hempty, Bool.or_false, if_neg Bool.false_ne_true]
  split
  · next hslash =>
    obtain ⟨s, rfl⟩ := exists_slash hslash
    exact components_slash_append s q.text
  · rw [components_slash_append, components_slash hp]

/-- An entry has the components of its directory and its name. -/
theorem components_join {p : Path} {name : String} (hp : p.text ≠ "") (h : IsEntryName name) :
    (p.join ⟨name⟩).components = p.components ++ [.name name] := by
  rw [components_join_relative hp (isAbsolute_entryName h), segments_entryName h,
    List.filterMap_cons_some (ofSegment?_entryName h), List.filterMap_nil]

theorem text_join_ne_empty {p : Path} {name : String} (h : IsEntryName name) :
    (p.join ⟨name⟩).text ≠ "" := by
  rw [join]
  split
  · exact h.ne_empty
  · split
    · simp [h.ne_empty]
    · simp [h.ne_empty]

end Path

end HeaderLint
