import Mathlib.Data.List.Nodup
import HeaderLint.Path

/-!
# The order of paths

Paths are compared component by component.  The order of components is total, and so is that of
lists of components, in which a list comes before all that it starts.  Two paths that are not
after each other have the same components, so they name the same file, but their texts may differ.
-/

namespace HeaderLint

namespace Path

/-! ## Components -/

namespace Component

theorem le_total (a b : Component) : a.le b = true ∨ b.le a = true := by
  cases a <;> cases b <;> simp [le, String.le_total]

theorem le_trans {a b c : Component} (hab : a.le b = true) (hbc : b.le c = true) :
    a.le c = true := by
  cases a <;> cases b <;> cases c <;> simp_all [le]
  exact String.le_trans hab hbc

theorem le_antisymm {a b : Component} (hab : a.le b = true) (hba : b.le a = true) : a = b := by
  cases a <;> cases b <;> simp_all [le]
  exact String.le_antisymm hab hba

end Component

/-! ## Lists of components -/

theorem componentsLe_nil (bs : List Component) : componentsLe [] bs = true := rfl

theorem componentsLe_cons {a b : Component} {as bs : List Component} :
    componentsLe (a :: as) (b :: bs) = true ↔
      a = b ∧ componentsLe as bs = true ∨ a ≠ b ∧ a.le b = true := by
  rw [componentsLe]
  by_cases h : a = b <;> simp [h]

theorem componentsLe_total (as bs : List Component) :
    componentsLe as bs = true ∨ componentsLe bs as = true := by
  induction as generalizing bs with
  | nil => exact .inl (componentsLe_nil bs)
  | cons a as ih =>
    cases bs with
    | nil => exact .inr (componentsLe_nil _)
    | cons b bs =>
      rw [componentsLe_cons, componentsLe_cons]
      by_cases h : a = b
      · exact (ih bs).imp (fun hle => .inl ⟨h, hle⟩) fun hle => .inl ⟨h.symm, hle⟩
      · exact (a.le_total b).imp (fun hle => .inr ⟨h, hle⟩) fun hle => .inr ⟨Ne.symm h, hle⟩

theorem componentsLe_trans {as bs cs : List Component} (hab : componentsLe as bs = true)
    (hbc : componentsLe bs cs = true) : componentsLe as cs = true := by
  induction as generalizing bs cs with
  | nil => exact componentsLe_nil cs
  | cons a as ih =>
    cases bs with
    | nil => cases hab
    | cons b bs =>
      cases cs with
      | nil => cases hbc
      | cons c cs =>
        rw [componentsLe_cons] at hab hbc ⊢
        rcases hab with ⟨rfl, hab⟩ | ⟨hne, hab⟩
        · exact hbc.imp (fun h => ⟨h.1, ih hab h.2⟩) id
        · rcases hbc with ⟨rfl, -⟩ | ⟨-, hbc⟩
          · exact .inr ⟨hne, hab⟩
          · refine .inr ⟨?_, Component.le_trans hab hbc⟩
            rintro rfl
            exact hne (Component.le_antisymm hab hbc)

theorem componentsLe_antisymm {as bs : List Component} (hab : componentsLe as bs = true)
    (hba : componentsLe bs as = true) : as = bs := by
  induction as generalizing bs with
  | nil =>
    cases bs with
    | nil => rfl
    | cons b bs => cases hba
  | cons a as ih =>
    cases bs with
    | nil => cases hab
    | cons b bs =>
      rw [componentsLe_cons] at hab hba
      rcases hab with ⟨rfl, hab⟩ | ⟨hne, hab⟩
      · rcases hba with ⟨-, hba⟩ | ⟨hne, -⟩
        · rw [ih hab hba]
        · exact absurd rfl hne
      · rcases hba with ⟨heq, -⟩ | ⟨-, hba⟩
        · exact absurd heq.symm hne
        · exact absurd (Component.le_antisymm hab hba) hne

/-! ## Paths -/

theorem le_total (p q : Path) : p.le q = true ∨ q.le p = true := componentsLe_total _ _

theorem le_trans {p q r : Path} (hpq : p.le q = true) (hqr : q.le r = true) : p.le r = true :=
  componentsLe_trans hpq hqr

theorem components_eq_of_le_of_le {p q : Path} (hpq : p.le q = true) (hqp : q.le p = true) :
    p.components = q.components :=
  componentsLe_antisymm hpq hqp

/-- The first path comes before the second, and the two differ in a component. -/
def Before (p q : Path) : Prop := p.le q = true ∧ p.components ≠ q.components

/-! ## Sorting by path -/

section
variable {α : Type} {path : α → Path} {as bs : List α}

theorem pairwise_le_mergeSort (path : α → Path) (as : List α) :
    (as.mergeSort fun a b => (path a).le (path b)).Pairwise
      fun a b => (path a).le (path b) = true := by
  apply List.pairwise_mergeSort
  · intro a b c hab hbc
    exact le_trans hab hbc
  · intro a b
    rw [Bool.or_eq_true]
    exact le_total (path a) (path b)

/-- Where no two paths have the same components, there is one order only. -/
theorem eq_of_perm_of_pairwise_le (hperm : as.Perm bs)
    (hdistinct : (as.map fun a => (path a).components).Nodup)
    (has : as.Pairwise fun a b => (path a).le (path b) = true)
    (hbs : bs.Pairwise fun a b => (path a).le (path b) = true) : as = bs := by
  refine hperm.eq_of_pairwise ?_ has hbs
  intro a b ha hb hab hba
  exact List.inj_on_of_nodup_map hdistinct ha (hperm.mem_iff.mpr hb)
    (components_eq_of_le_of_le hab hba)

/-- Where no two paths have the same components, an ordered list is strictly ordered. -/
theorem pairwise_before (hdistinct : (as.map fun a => (path a).components).Nodup)
    (has : as.Pairwise fun a b => (path a).le (path b) = true) :
    as.Pairwise fun a b => (path a).Before (path b) :=
  has.and (List.pairwise_map.mp hdistinct)

end

end Path

end HeaderLint
