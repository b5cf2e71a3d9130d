import Mathlib.Computability.Language
import HeaderLint.Pattern.Row

/-!
# Rows of languages

The texts that a pattern accepts are a language, and the row of a pattern over a text says
which rests of the text belong to it (`Row.IsRow`).  Each operation on rows puts a language
in front of another one: `one` the accepted elements, `run` their runs, and `past` the texts
that end with a separator.  Concatenation is associative and distributes over choices, so
the row of a longer piece follows from the rows of its parts.
-/

namespace HeaderLint.Row

variable {α : Type}

/-! ## The languages of pieces -/

/-- The texts of one accepted element. -/
def singles (accept : α → Bool) : Language α := {text | ∃ a, accept a = true ∧ text = [a]}

/-- The runs of accepted elements. -/
def runs (accept : α → Bool) : Language α := {text | ∀ a ∈ text, accept a = true}

/-- The texts that end with a separator. -/
def endings (separates : α → Bool) : Language α :=
  {text | ∃ front a, separates a = true ∧ text = front ++ [a]}

/-- The texts of one element that some range holds, or that none holds. -/
def members [LE α] (negated : Bool) (ranges : List (α × α)) : Language α :=
  {text | ∃ a, ((∃ r ∈ ranges, r.1 ≤ a ∧ a ≤ r.2) ↔ negated = false) ∧ text = [a]}

/-- All texts, if the language holds the empty one. -/
def allIfEmpty (L : Language α) : Language α := {_text | [] ∈ L}

theorem singles_beq [BEq α] [LawfulBEq α] (a : α) : singles (· == a) = {[a]} := by
  ext text
  constructor
  · rintro ⟨b, hb, rfl⟩
    rw [beq_iff_eq] at hb
    rw [hb]
    rfl
  · rintro rfl
    exact ⟨a, beq_self_eq_true a, rfl⟩

theorem runs_true : runs (fun _ : α => true) = ⊤ := by
  ext text
  exact iff_of_true (fun _ _ => rfl) trivial

theorem singles_ranges [LE α] [DecidableLE α] (negated : Bool) (ranges : List (α × α)) :
    singles (fun a => ranges.any (fun r => decide (r.1 ≤ a) && decide (a ≤ r.2)) != negated) =
      members negated ranges := by
  ext text
  refine exists_congr fun a => and_congr_left fun _ => ?_
  cases negated <;> simp

/-! ## A language in front of another -/

section

variable {L : Language α} {a : α} {text : List α}

theorem nil_mem_singles_mul {accept : α → Bool} : ¬ [] ∈ singles accept * L := by
  rintro ⟨_, ⟨a, -, rfl⟩, rest, -, h⟩
  cases h

theorem cons_mem_singles_mul {accept : α → Bool} :
    a :: text ∈ singles accept * L ↔ accept a = true ∧ text ∈ L := by
  constructor
  · rintro ⟨_, ⟨b, hb, rfl⟩, rest, hrest, h⟩
    obtain ⟨rfl, rfl⟩ := List.cons.inj h
    exact ⟨hb, hrest⟩
  · rintro ⟨ha, htext⟩
    exact ⟨[a], ⟨a, ha, rfl⟩, text, htext, rfl⟩

theorem nil_mem_runs_mul {accept : α → Bool} : [] ∈ runs accept * L ↔ [] ∈ L := by
  constructor
  · rintro ⟨front, -, rest, hrest, h⟩
    obtain ⟨rfl, rfl⟩ := List.append_eq_nil_iff.mp h
    exact hrest
  · intro h
    exact ⟨[], fun _ ha => absurd ha List.not_mem_nil, [], h, rfl⟩

theorem cons_mem_runs_mul {accept : α → Bool} :
    a :: text ∈ runs accept * L ↔
      a :: text ∈ L ∨ accept a = true ∧ text ∈ runs accept * L := by
  constructor
  · rintro ⟨front, hfront, rest, hrest, h⟩
    cases front with
    | nil => exact .inl (h ▸ hrest)
    | cons b front =>
      obtain ⟨rfl, rfl⟩ := List.cons.inj h
      obtain ⟨hb, hfront⟩ := List.forall_mem_cons.mp hfront
      exact .inr ⟨hb, front, hfront, rest, hrest, rfl⟩
  · rintro (h | ⟨ha, front, hfront, rest, hrest, rfl⟩)
    · exact ⟨[], fun _ hb => absurd hb List.not_mem_nil, a :: text, h, rfl⟩
    · exact ⟨a :: front, List.forall_mem_cons.mpr ⟨ha, hfront⟩, rest, hrest, rfl⟩

theorem nil_mem_endings_mul {separates : α → Bool} : ¬ [] ∈ endings separates * L := by
  rintro ⟨_, ⟨front, a, -, rfl⟩, rest, -, h⟩
  simp at h

theorem cons_mem_endings_mul {separates : α → Bool} :
    a :: text ∈ endings separates * L ↔
      separates a = true ∧ text ∈ L ∨ text ∈ endings separates * L := by
  constructor
  · rintro ⟨_, ⟨front, b, hb, rfl⟩, rest, hrest, h⟩
    cases front with
    | nil =>
      obtain ⟨rfl, rfl⟩ := List.cons.inj h
      exact .inl ⟨hb, hrest⟩
    | cons c front =>
      obtain ⟨rfl, rfl⟩ := List.cons.inj h
      exact .inr ⟨front ++ [b], ⟨front, b, hb, rfl⟩, rest, hrest, rfl⟩
  · rintro (⟨ha, htext⟩ | ⟨_, ⟨front, b, hb, rfl⟩, rest, hrest, rfl⟩)
    · exact ⟨[a], ⟨[], a, ha, rfl⟩, text, htext, rfl⟩
    · exact ⟨a :: front ++ [b], ⟨a :: front, b, hb, rfl⟩, rest, hrest, rfl⟩

end

/-! ## Decisions -/

/-- The function decides the language. -/
def Decides (m : List α → Bool) (L : Language α) : Prop := ∀ text, m text = true ↔ text ∈ L

section

variable {m n : List α → Bool} {L M : Language α}

theorem decides_isEmpty : Decides List.isEmpty (1 : Language α) := fun _ =>
  List.isEmpty_iff.trans (Language.mem_one _).symm

theorem Decides.isOne (h : Decides m L) (accept : α → Bool) :
    Decides (isOne accept m) (singles accept * L) := by
  intro text
  cases text with
  | nil => exact iff_of_false Bool.false_ne_true nil_mem_singles_mul
  | cons a text => rw [Row.isOne, Bool.and_eq_true, h, cons_mem_singles_mul]

theorem Decides.isRun (h : Decides m L) (accept : α → Bool) :
    Decides (isRun accept m) (runs accept * L) := by
  intro text
  induction text with
  | nil => rw [Row.isRun, h, nil_mem_runs_mul]
  | cons a text ih => rw [Row.isRun, Bool.or_eq_true, Bool.and_eq_true, h, ih, cons_mem_runs_mul]

theorem Decides.isPast (h : Decides m L) (separates : α → Bool) :
    Decides (isPast separates m) (endings separates * L) := by
  intro text
  induction text with
  | nil => exact iff_of_false Bool.false_ne_true nil_mem_endings_mul
  | cons a text ih =>
    rw [Row.isPast, Bool.or_eq_true, Bool.and_eq_true, h, ih, cons_mem_endings_mul]

theorem Decides.or (h : Decides m L) (h' : Decides n M) :
    Decides (fun text => m text || n text) (L + M) := by
  intro text
  rw [Bool.or_eq_true, h, h', Language.mem_add]

end

/-! ## Rows -/

/-- The rows over all texts are those of the language. -/
def IsRow (row : List α → List Bool) (L : Language α) : Prop :=
  ∃ m, Decides m L ∧ ∀ text, row text = rowOf m text

theorem isRow_isEmpty : IsRow (rowOf List.isEmpty) (1 : Language α) :=
  ⟨List.isEmpty, decides_isEmpty, fun _ => rfl⟩

namespace IsRow

variable {row other : List α → List Bool} {L M : Language α}

theorem whole_iff (h : IsRow row L) (text : List α) : whole (row text) = true ↔ text ∈ L := by
  obtain ⟨m, hm, hrow⟩ := h
  rw [hrow, whole_rowOf, hm]

/-- What an operation does to the rows of sets, it does to the rows of languages. -/
theorem map {g : List α → List Bool → List Bool} {f : (List α → Bool) → List α → Bool}
    (h : IsRow row L) (hrows : ∀ m text, g text (rowOf m text) = rowOf (f m) text)
    (hsets : ∀ m, Decides m L → Decides (f m) M) : IsRow (fun text => g text (row text)) M := by
  obtain ⟨m, hm, hrow⟩ := h
  exact ⟨f m, hsets m hm, fun text => (congrArg (g text) (hrow text)).trans (hrows m text)⟩

theorem one (h : IsRow row L) (accept : α → Bool) :
    IsRow (fun text => one accept text (row text)) (singles accept * L) :=
  h.map (one_rowOf accept) fun _ hm => hm.isOne accept

theorem run (h : IsRow row L) (accept : α → Bool) :
    IsRow (fun text => run accept text (row text)) (runs accept * L) :=
  h.map (run_rowOf accept) fun _ hm => hm.isRun accept

theorem past (h : IsRow row L) (separates : α → Bool) :
    IsRow (fun text => past separates text (row text)) (endings separates * L) :=
  h.map (past_rowOf separates) fun _ hm => hm.isPast separates

theorem none (h : IsRow row L) : IsRow (fun text => (row text).map fun _ => false) 0 :=
  h.map (map_rowOf fun _ => false) fun _ _ text =>
    iff_of_false Bool.false_ne_true (Language.notMem_zero text)

theorem orLast (h : IsRow row L) :
    IsRow (fun text => (row text).map (· || (row text).getLastD false)) (L + allIfEmpty L) := by
  refine h.map (g := fun _ row => row.map (· || row.getLastD false)) (fun m text => ?_)
    fun m hm => hm.or fun _ => hm []
  rw [getLastD_rowOf, map_rowOf (· || m [])]

theorem either (h : IsRow row L) (h' : IsRow other M) :
    IsRow (fun text => either (row text) (other text)) (L + M) := by
  obtain ⟨m, hm, hrow⟩ := h
  obtain ⟨n, hn, hother⟩ := h'
  refine ⟨fun text => m text || n text, hm.or hn, fun text => ?_⟩
  exact (congrArg₂ _ (hrow text) (hother text)).trans (either_rowOf m n text)

end IsRow

end HeaderLint.Row
