import HeaderLint.Proofs.Path.Steps

/-!
# Short spellings of a path

Paths with the same components stand for the same place, except that a path must not be too long.
So it matters which of them has fewer bytes.  `Path.Shortens` says that one path is spelled with no
more bytes than another that has the same components, with a slash counted behind either.  It is
kept when both are joined with a further path (`Path.Shortens.join`).

The absolute path of a location is the shortest of all with its components, and so is the path of
the working directory (`FileSystem.shortens_currentDir`).
-/

namespace HeaderLint

namespace Path

/-! ## The bytes of a path -/

/-- The bytes of names with a slash for each. -/
def slashedSize : List String → Nat
  | [] => 0
  | name :: names => name.utf8ByteSize + 1 + slashedSize names

theorem slashedSize_cons (name : String) (names : List String) :
    slashedSize (name :: names) = name.utf8ByteSize + 1 + slashedSize names := rfl

theorem slashedSize_filter_le (p : String → Bool) (names : List String) :
    slashedSize (names.filter p) ≤ slashedSize names := by
  induction names with
  | nil => exact Nat.le_refl _
  | cons name names ih =>
    rw [List.filter_cons]
    split
    · rw [slashedSize_cons, slashedSize_cons]
      omega
    · rw [slashedSize_cons]
      omega

theorem slashedSize_splitOn (cs : List Char) :
    slashedSize ((cs.splitOn '/').map String.ofList) = (String.ofList cs).utf8ByteSize + 1 := by
  induction cs with
  | nil => rfl
  | cons c cs ih =>
    obtain ⟨first, rest, hsplit⟩ := List.exists_cons_of_ne_nil (List.splitOn_ne_nil '/' cs)
    rw [hsplit, List.map_cons, slashedSize_cons] at ih
    rw [List.splitOn_cons_eq_if_modifyHead, hsplit, String.ofList_cons, String.utf8ByteSize_append,
      String.utf8ByteSize_singleton]
    split
    · next hslash =>
      have hsize : Char.utf8Size '/' = 1 := rfl
      rw [beq_iff_eq.mp hslash, hsize, List.map_cons, List.map_cons, slashedSize_cons,
        slashedSize_cons, ih, String.ofList_nil, String.utf8ByteSize_empty]
      omega
    · rw [List.modifyHead_cons, List.map_cons, slashedSize_cons, String.ofList_cons,
        String.utf8ByteSize_append, String.utf8ByteSize_singleton]
      omega

theorem slashedSize_segments (p : Path) : slashedSize p.segments = p.text.utf8ByteSize + 1 := by
  rw [segments, slashedSize_splitOn, String.ofList_toList]

/-- The text of a path ends with a slash. -/
def EndsInSlash (p : Path) : Prop := p.text.toList.getLast? = some '/'

instance (p : Path) : Decidable p.EndsInSlash := inferInstanceAs (Decidable (_ = _))

/-- The bytes in front of what is joined to a path, the slash between the two included. -/
def lead (p : Path) : Nat := p.text.utf8ByteSize + if p.EndsInSlash then 0 else 1

section
variable {p q r : Path}

theorem lead_of_endsInSlash (h : p.EndsInSlash) : p.lead = p.text.utf8ByteSize := by
  rw [lead, if_pos h, Nat.add_zero]

theorem lead_of_not_endsInSlash (h : ¬p.EndsInSlash) : p.lead = p.text.utf8ByteSize + 1 := by
  rw [lead, if_neg h]

theorem join_of_relative (hp : p.text ≠ "") (hr : r.isAbsolute = false) :
    p.join r = if p.EndsInSlash then ⟨p.text ++ r.text⟩ else ⟨p.text ++ "/" ++ r.text⟩ := by
  have hempty : p.text.isEmpty = false := by simpa using hp
  rw [join, hr, hempty, Bool.or_false, if_neg Bool.false_ne_true]
  rfl

/-- What is joined starts behind the lead. -/
theorem size_join (hp : p.text ≠ "") (hr : r.isAbsolute = false) :
    (p.join r).text.utf8ByteSize = p.lead + r.text.utf8ByteSize := by
  have hslash : "/".utf8ByteSize = 1 := rfl
  rw [join_of_relative hp hr, lead]
  split
  · exact String.utf8ByteSize_append
  · rw [String.utf8ByteSize_append, String.utf8ByteSize_append, hslash]

theorem endsInSlash_join (hp : p.text ≠ "") (hr : r.isAbsolute = false) :
    (p.join r).EndsInSlash ↔ r.text = "" ∨ r.EndsInSlash := by
  rw [join_of_relative hp hr]
  by_cases hempty : r.text = ""
  · split
    · next hslash => simpa [hempty, EndsInSlash] using hslash
    · simp [hempty, EndsInSlash]
  · obtain ⟨c, cs, hcs⟩ : ∃ c cs, r.text.toList = c :: cs :=
      List.exists_cons_of_ne_nil (by simpa using hempty)
    split
    · simp [hempty, EndsInSlash, hcs]
    · simp [hempty, EndsInSlash, hcs]

theorem lead_join (hp : p.text ≠ "") (hr : r.isAbsolute = false) :
    (p.join r).lead = p.lead + if r.text = "" then 0 else r.lead := by
  rw [lead, size_join hp hr]
  by_cases hempty : r.text = ""
  · simp [endsInSlash_join hp hr, hempty]
  · simp only [endsInSlash_join hp hr, hempty, false_or, if_false]
    exact Nat.add_assoc _ _ _

/-! ## Spellings of the same components -/

/-- The first path is spelled with no more bytes than the second, which has the same components. -/
structure Shortens (p q : Path) : Prop where
  ne_empty : p.text ≠ ""
  ne_empty' : q.text ≠ ""
  components_eq : p.components = q.components
  lead_le : p.lead ≤ q.lead

theorem Shortens.refl (hp : p.text ≠ "") : Shortens p p := ⟨hp, hp, rfl, Nat.le_refl _⟩

theorem text_ne_empty_of_isAbsolute (h : p.isAbsolute = true) : p.text ≠ "" := by
  intro hempty
  rw [isAbsolute, hempty] at h
  simp at h

/-- The shorter path stays so when both are joined with the same path. -/
theorem Shortens.join (h : Shortens p q) (r : Path) : Shortens (p.join r) (q.join r) := by
  by_cases hr : r.isAbsolute = true
  · rw [Path.join, Path.join, hr, Bool.true_or, Bool.true_or, if_pos rfl, if_pos rfl]
    exact .refl (text_ne_empty_of_isAbsolute hr)
  · rw [Bool.not_eq_true] at hr
    have hne : ∀ {s : Path}, s.text ≠ "" → (s.join r).text ≠ "" := by
      intro s hs
      rw [join_of_relative hs hr]
      split
      · simp [hs]
      · simp
    refine ⟨hne h.ne_empty, hne h.ne_empty', ?_, ?_⟩
    · rw [components_join_relative h.ne_empty hr, components_join_relative h.ne_empty' hr,
        h.components_eq]
    · rw [lead_join h.ne_empty hr, lead_join h.ne_empty' hr]
      exact Nat.add_le_add_right h.lead_le _

/-- A name behind the shorter path makes no more bytes than one behind the longer. -/
theorem Shortens.size_join_le (h : Shortens p q) {name : String} (hname : IsEntryName name) :
    (p.join ⟨name⟩).text.utf8ByteSize ≤ (q.join ⟨name⟩).text.utf8ByteSize := by
  rw [size_join h.ne_empty (isAbsolute_entryName hname),
    size_join h.ne_empty' (isAbsolute_entryName hname)]
  exact Nat.add_le_add_right h.lead_le _

/-! ## The shortest spelling -/

/-- An absolute path has a slash for each step. -/
theorem slashedSize_steps_le (h : p.isAbsolute = true) :
    slashedSize p.steps ≤ p.text.utf8ByteSize := by
  obtain ⟨cs, hcs⟩ : ∃ cs, p.text.toList = '/' :: cs := by
    rw [isAbsolute, decide_eq_true_iff] at h
    exact List.head?_eq_some_iff.mp h
  have hsegments : p.segments = "" :: (cs.splitOn '/').map String.ofList := by
    rw [segments, hcs, List.splitOn_cons_eq_if_modifyHead, if_pos (beq_self_eq_true _)]
    rfl
  have hsize := slashedSize_segments p
  rw [hsegments, slashedSize_cons, String.utf8ByteSize_empty] at hsize
  have hle : slashedSize p.steps ≤ slashedSize ((cs.splitOn '/').map String.ofList) := by
    rw [steps, hsegments, List.filter_cons_of_neg (by simp)]
    exact slashedSize_filter_le _ _
  omega

theorem slashedSize_steps_lt_lead (h : p.isAbsolute = true) : slashedSize p.steps < p.lead := by
  have hle := slashedSize_steps_le h
  by_cases hslash : p.EndsInSlash
  · obtain ⟨s, rfl⟩ := exists_slash hslash
    rw [lead_of_endsInSlash hslash, String.utf8ByteSize_append]
    by_cases hs : s = ""
    · rw [hs]
      decide +kernel
    · have hcomponents := components_slash hs
      rw [isAbsolute_eq_of_components_eq hcomponents] at h
      rw [steps_eq_of_components_eq hcomponents]
      exact Nat.lt_succ_of_le (slashedSize_steps_le h)
  · rw [lead_of_not_endsInSlash hslash]
    exact Nat.lt_succ_of_le hle

end

end Path

/-! ## The path of the working directory -/

namespace FileSystem

section
variable {l : Location}

theorem segments_intercalate (hl : l ≠ []) (hnames : ∀ name ∈ l, IsEntryName name) :
    Path.segments ⟨"/".intercalate l⟩ = l := by
  induction l with
  | nil => exact absurd rfl hl
  | cons name names ih =>
    obtain ⟨hname, hnames⟩ := List.forall_mem_cons.mp hnames
    cases names with
    | nil => exact Path.segments_entryName hname
    | cons second names =>
      rw [String.intercalate_cons_cons, Path.segments_slash, Path.segments_entryName hname,
        ih (List.cons_ne_nil _ _) hnames]
      rfl

theorem segments_pathOf (hl : l ≠ []) (hnames : ∀ name ∈ l, IsEntryName name) :
    (pathOf l).segments = "" :: l := by
  have htext : "/" ++ "/".intercalate l = "" ++ "/" ++ "/".intercalate l := by
    rw [String.empty_append]
  rw [pathOf, htext, Path.segments_slash, segments_intercalate hl hnames]
  rfl

theorem isAbsolute_pathOf (l : Location) : (pathOf l).isAbsolute = true := by
  rw [pathOf, Path.isAbsolute, decide_eq_true_iff, String.toList_append]
  rfl

theorem steps_pathOf (hnames : ∀ name ∈ l, IsEntryName name) : (pathOf l).steps = l := by
  by_cases hl : l = []
  · rw [hl]
    decide +kernel
  · rw [Path.steps, segments_pathOf hl hnames, List.filter_cons_of_neg (by simp)]
    exact List.filter_eq_self.mpr fun name hname => (hnames name hname).isStep

/-- The path of a location does not end with a slash, unless it is the root. -/
theorem not_endsInSlash_pathOf (hl : l ≠ []) (hnames : ∀ name ∈ l, IsEntryName name) :
    ¬(pathOf l).EndsInSlash := by
  intro hslash
  obtain ⟨s, hs⟩ := Path.exists_slash hslash
  have hsegments := Path.segments_slash s ""
  rw [String.append_empty, ← hs, segments_pathOf hl hnames] at hsegments
  have hlast := congrArg List.getLast? hsegments
  rw [List.getLast?_cons_of_ne_nil hl, List.getLast?_append] at hlast
  exact (hnames "" (List.mem_of_getLast? hlast)).ne_empty rfl

theorem lead_pathOf (hnames : ∀ name ∈ l, IsEntryName name) :
    (pathOf l).lead = Path.slashedSize l + 1 := by
  by_cases hl : l = []
  · rw [hl]
    decide +kernel
  · have hsize := Path.slashedSize_segments (pathOf l)
    rw [segments_pathOf hl hnames, Path.slashedSize_cons, String.utf8ByteSize_empty] at hsize
    rw [Path.lead_of_not_endsInSlash (not_endsInSlash_pathOf hl hnames)]
    omega

/-- The path of a location is the shortest with its components. -/
theorem lead_pathOf_le (hnames : ∀ name ∈ l, IsEntryName name) {p : Path}
    (h : (pathOf l).components = p.components) : (pathOf l).lead ≤ p.lead := by
  have habsolute : p.isAbsolute = true :=
    Path.isAbsolute_eq_of_components_eq h ▸ isAbsolute_pathOf l
  have hlt := Path.slashedSize_steps_lt_lead habsolute
  rw [← Path.steps_eq_of_components_eq h, steps_pathOf hnames] at hlt
  rw [lead_pathOf hnames]
  exact hlt

end

theorem two_le_lead {p : Path} (hp : p.text ≠ "") (h : p.isAbsolute = false) : 2 ≤ p.lead := by
  have hpos : ∀ {s : String}, s ≠ "" → 0 < s.utf8ByteSize := fun hs =>
    Nat.pos_of_ne_zero (mt String.utf8ByteSize_eq_zero_iff.mp hs)
  by_cases hslash : p.EndsInSlash
  · obtain ⟨s, rfl⟩ := Path.exists_slash hslash
    have hs : s ≠ "" := by
      rintro rfl
      exact absurd h (by decide +kernel)
    rw [Path.lead_of_endsInSlash hslash, String.utf8ByteSize_append]
    exact Nat.add_le_add (hpos hs) (Nat.le_refl 1)
  · rw [Path.lead_of_not_endsInSlash hslash]
    exact Nat.succ_le_succ (hpos hp)

/-- The path of the working directory is the shortest with its components. -/
theorem shortens_currentDir {fs : FileSystem}
    (hnames : fs.workingDir.gone = 0 → ∀ name ∈ fs.workingDir.location, IsEntryName name) {p : Path}
    (h : p.components = fs.currentDir.components) : Path.Shortens fs.currentDir p := by
  have hne : ∀ {q : Path}, q.components ≠ [] → q.text ≠ "" := by
    rintro ⟨text⟩ hq rfl
    exact hq (by decide +kernel)
  have hcomponents : fs.currentDir.components ≠ [] ∧ fs.currentDir.lead ≤ p.lead := by
    rw [currentDir, currentDir?] at h ⊢
    split
    · next hgone =>
      rw [if_pos hgone] at h
      have hroot := (Path.isAbsolute_iff _).mp (isAbsolute_pathOf fs.workingDir.location)
      refine ⟨?_, lead_pathOf_le (hnames hgone) h.symm⟩
      rintro hnil
      rw [Option.getD_some] at hnil
      rw [hnil] at hroot
      cases hroot
    · next hgone =>
      rw [if_neg hgone, Option.getD_none] at h
      have hhere : Path.components ⟨"."⟩ = [.here] := by decide +kernel
      have habsolute : p.isAbsolute = false := by
        rw [Path.isAbsolute_eq_of_components_eq h]
        decide +kernel
      rw [Option.getD_none, hhere]
      refine ⟨List.cons_ne_nil _ _, ?_⟩
      exact two_le_lead (hne (by rw [h, hhere]; exact List.cons_ne_nil _ _)) habsolute
  exact ⟨hne hcomponents.1, hne (h ▸ hcomponents.1), h.symm, hcomponents.2⟩

end FileSystem

end HeaderLint
