import HeaderLint.Pairing
import HeaderLint.Proofs.FileTree.OneFile
import HeaderLint.Proofs.Path.Spelling
import HeaderLint.Proofs.Path.Stem

/-!
# The candidates for a partner

A candidate has a rank in the search (`Pairing.Rank`): the number of its base, of its directory in
the base and of its extension.  Ranks are ordered by base, then by directory, then by extension,
and the search goes through the candidates in this order (`Pairing.exists_isFirst_of_find?`).

A project root that is the working directory is not searched again.  It may be spelled in another
way, but each of its candidates has one in the working directory with the same components and no
more bytes.  So nothing is found there that was not found before, and the search is one of all
three bases (`FileSystem.findPartner?_eq`).
-/

namespace HeaderLint

/-! ## Names of candidates -/

theorem SourceKind.of_mem_extensions {kind : SourceKind} {extension : String}
    (h : extension ∈ kind.extensions) :
    extension ≠ "" ∧ '/' ∉ extension.toList ∧ '.' ∉ extension.toList ∧
      ofExtension? extension = some kind := by
  have hall : ∀ kind ∈ [header, implementation], ∀ e ∈ kind.extensions,
      e ≠ "" ∧ '/' ∉ e.toList ∧ '.' ∉ e.toList ∧ ofExtension? e = some kind := by decide +kernel
  refine hall kind ?_ extension h
  cases kind with
  | header => exact List.mem_cons_self
  | implementation => exact List.mem_cons_of_mem _ List.mem_cons_self

/-- What pairing looks for can be the name of an entry. -/
theorem Path.isEntryName_of_stem? {p : Path} {stem : String} (hstem : p.stem? = some stem)
    {kind : SourceKind} {extension : String} (h : extension ∈ kind.extensions) :
    IsEntryName (stem ++ "." ++ extension) :=
  isEntryName_stem_append hstem (SourceKind.of_mem_extensions h).1
    (SourceKind.of_mem_extensions h).2.1

namespace Pairing

/-! ## Ranks -/

/-- Where a candidate stands in the search. -/
structure Rank where
  /-- The number of the base. -/
  base : Nat
  /-- The number of the directory in the base. -/
  dir : Nat
  /-- The number of the extension. -/
  extension : Nat
deriving DecidableEq, Repr

/-- The order of the search: by base, then by directory, then by extension. -/
def Rank.Before (r s : Rank) : Prop :=
  r.base < s.base ∨ r.base = s.base ∧ (r.dir < s.dir ∨ r.dir = s.dir ∧ r.extension < s.extension)

theorem Rank.before_trichotomy (r s : Rank) : r.Before s ∨ r = s ∨ s.Before r := by
  rw [Rank.Before, Rank.Before, Rank.mk.injEq]
  omega

/-- The directory with a given number in a base: the conventional one, then the configured ones
below it, then the base itself. -/
def directoryAt? (kind : SourceKind) (subdirs : List String) (base : Path) : Nat → Option Path
  | 0 => some (base.join kind.conventionalDir)
  | i + 1 =>
    if i = subdirs.length then some base
    else subdirs[i]?.map fun sub => (base.join kind.conventionalDir).join ⟨sub⟩

theorem getElem?_directories (kind : SourceKind) (subdirs : List String) (base : Path) (i : Nat) :
    (directories kind subdirs base)[i]? = directoryAt? kind subdirs base i := by
  cases i with
  | zero => rfl
  | succ i =>
    rw [directories, List.append_assoc, List.singleton_append, List.getElem?_cons_succ,
      List.getElem?_append, List.length_map, List.getElem?_map, directoryAt?]
    rcases Nat.lt_trichotomy i subdirs.length with hlt | rfl | hgt
    · rw [if_pos hlt, if_neg (Nat.ne_of_lt hlt)]
    · rw [if_neg (Nat.lt_irrefl _), if_pos rfl, Nat.sub_self]
      rfl
    · rw [if_neg (Nat.not_lt_of_gt hgt), if_neg (Nat.ne_of_gt hgt),
        List.getElem?_eq_none (Nat.le_of_lt hgt)]
      exact List.getElem?_eq_none (Nat.sub_pos_of_lt hgt)

/-- The candidate with a given rank in a list of bases. -/
def candidateAt? (kind : SourceKind) (subdirs : List String) (stem : String) (bases : List Path)
    (r : Rank) : Option Path :=
  bases[r.base]?.bind fun base =>
    (directoryAt? kind subdirs base r.dir).bind fun dir =>
      kind.extensions[r.extension]?.map fun extension => dir.join ⟨stem ++ "." ++ extension⟩

section
variable {kind : SourceKind} {subdirs : List String} {stem : String} {bases : List Path}
  {r : Rank} {c : Path} {p : Path → Bool}

theorem candidateAt?_eq_some_iff :
    candidateAt? kind subdirs stem bases r = some c ↔
      ∃ base dir extension, bases[r.base]? = some base ∧
        (directories kind subdirs base)[r.dir]? = some dir ∧
          kind.extensions[r.extension]? = some extension ∧
            dir.join ⟨stem ++ "." ++ extension⟩ = c := by
  simp only [candidateAt?, ← getElem?_directories, Option.bind_eq_some_iff,
    Option.map_eq_some_iff]
  constructor
  · rintro ⟨base, hbase, dir, hdir, extension, hextension, hc⟩
    exact ⟨base, dir, extension, hbase, hdir, hextension, hc⟩
  · rintro ⟨base, dir, extension, hbase, hdir, hextension, hc⟩
    exact ⟨base, hbase, dir, hdir, extension, hextension, hc⟩

theorem mem_candidates_iff :
    c ∈ candidates kind subdirs stem bases ↔
      ∃ base ∈ bases, ∃ dir ∈ directories kind subdirs base, c ∈ inDirectory kind stem dir := by
  rw [candidates, List.mem_flatMap]
  exact exists_congr fun base => and_congr_right fun _ => List.mem_flatMap

/-- Every candidate has a rank, and what has a rank is a candidate. -/
theorem mem_candidates_iff_rank :
    c ∈ candidates kind subdirs stem bases ↔
      ∃ r, candidateAt? kind subdirs stem bases r = some c := by
  simp only [mem_candidates_iff, inDirectory, List.mem_map, candidateAt?_eq_some_iff]
  constructor
  · rintro ⟨base, hbase, dir, hdir, extension, hextension, hc⟩
    obtain ⟨i, hi⟩ := List.mem_iff_getElem?.mp hbase
    obtain ⟨j, hj⟩ := List.mem_iff_getElem?.mp hdir
    obtain ⟨k, hk⟩ := List.mem_iff_getElem?.mp hextension
    exact ⟨⟨i, j, k⟩, base, dir, extension, hi, hj, hk, hc⟩
  · rintro ⟨r, base, dir, extension, hbase, hdir, hextension, hc⟩
    exact ⟨base, List.mem_of_getElem? hbase, dir, List.mem_of_getElem? hdir, extension,
      List.mem_of_getElem? hextension, hc⟩

/-! ## The first candidate -/

/-- What is found in lists put together is found in the first of them that has such a member. -/
theorem exists_first_of_find?_flatMap {α : Type} {l : List α} {f : α → List Path}
    (h : (l.flatMap f).find? p = some c) :
    ∃ (i : Nat) (a : α), l[i]? = some a ∧ (f a).find? p = some c ∧
      ∀ j < i, ∀ b, l[j]? = some b → ∀ d ∈ f b, p d = false := by
  induction l with
  | nil => cases h
  | cons x l ih =>
    rw [List.flatMap_cons, List.find?_append, Option.or_eq_some_iff] at h
    rcases h with h | ⟨hnone, h⟩
    · exact ⟨0, x, rfl, h, nofun⟩
    · obtain ⟨i, a, hi, ha, hbefore⟩ := ih h
      refine ⟨i + 1, a, hi, ha, fun j hj b hb d hd => ?_⟩
      cases j with
      | zero =>
        obtain rfl : x = b := Option.some.inj hb
        exact Bool.not_eq_true _ ▸ List.find?_eq_none.mp hnone d hd
      | succ j => exact hbefore j (Nat.lt_of_succ_lt_succ hj) b hb d hd

/-- The candidate of a rank is the first that passes the test. -/
structure IsFirst (kind : SourceKind) (subdirs : List String) (stem : String) (bases : List Path)
    (p : Path → Bool) (r : Rank) (c : Path) : Prop where
  at_rank : candidateAt? kind subdirs stem bases r = some c
  passes : p c = true
  none_before : ∀ s, s.Before r → ∀ d, candidateAt? kind subdirs stem bases s = some d → p d = false

theorem exists_isFirst_of_find? (h : (candidates kind subdirs stem bases).find? p = some c) :
    ∃ r, IsFirst kind subdirs stem bases p r c := by
  obtain ⟨i, base, hbase, hfound, hbases⟩ := exists_first_of_find?_flatMap h
  obtain ⟨j, dir, hdir, hfound, hdirs⟩ := exists_first_of_find?_flatMap hfound
  rw [inDirectory, List.map_eq_flatMap] at hfound
  obtain ⟨k, extension, hextension, hfound, hextensions⟩ := exists_first_of_find?_flatMap hfound
  obtain rfl := List.mem_singleton.mp (List.mem_of_find?_eq_some hfound)
  refine ⟨⟨i, j, k⟩, ?_, List.find?_some hfound, fun ⟨i', j', k'⟩ hs d hd => ?_⟩
  · exact candidateAt?_eq_some_iff.mpr ⟨base, dir, extension, hbase, hdir, hextension, rfl⟩
  · obtain ⟨base', dir', extension', hbase', hdir', hextension', rfl⟩ :=
      candidateAt?_eq_some_iff.mp hd
    have hmem : dir'.join ⟨stem ++ "." ++ extension'⟩ ∈ inDirectory kind stem dir' :=
      List.mem_map.mpr ⟨extension', List.mem_of_getElem? hextension', rfl⟩
    rcases hs with hlt | ⟨hi, hlt | ⟨hj, hlt⟩⟩
    · refine hbases i' hlt base' hbase' _ ?_
      exact List.mem_flatMap.mpr ⟨dir', List.mem_of_getElem? hdir', hmem⟩
    · obtain rfl : i' = i := hi
      obtain rfl : base = base' := Option.some.inj (hbase.symm.trans hbase')
      exact hdirs j' hlt dir' hdir' _ hmem
    · obtain rfl : i' = i := hi
      obtain rfl : base = base' := Option.some.inj (hbase.symm.trans hbase')
      obtain rfl : j' = j := hj
      obtain rfl : dir = dir' := Option.some.inj (hdir.symm.trans hdir')
      exact hextensions k' hlt extension' hextension' _ List.mem_cons_self

theorem IsFirst.unique {s : Rank} {d : Path} (h : IsFirst kind subdirs stem bases p r c)
    (h' : IsFirst kind subdirs stem bases p s d) : c = d := by
  rcases r.before_trichotomy s with hbefore | rfl | hbefore
  · exact absurd h.passes (by rw [h'.none_before r hbefore c h.at_rank]; exact Bool.false_ne_true)
  · exact Option.some.inj (h.at_rank.symm.trans h'.at_rank)
  · exact absurd h'.passes (by rw [h.none_before s hbefore d h'.at_rank]; exact Bool.false_ne_true)

/-- What the search finds is the first candidate that passes the test. -/
theorem find?_candidates_iff :
    (candidates kind subdirs stem bases).find? p = some c ↔
      ∃ r, IsFirst kind subdirs stem bases p r c := by
  refine ⟨exists_isFirst_of_find?, fun ⟨r, h⟩ => ?_⟩
  have hmem := mem_candidates_iff_rank.mpr ⟨r, h.at_rank⟩
  cases hfound : (candidates kind subdirs stem bases).find? p with
  | none => exact absurd h.passes (List.find?_eq_none.mp hfound c hmem)
  | some d =>
    obtain ⟨s, hs⟩ := exists_isFirst_of_find? hfound
    rw [h.unique hs]

/-! ## Bases with the same components -/

theorem candidates_append (front back : List Path) :
    candidates kind subdirs stem (front ++ back) =
      candidates kind subdirs stem front ++ candidates kind subdirs stem back :=
  List.flatMap_append

/-- Each directory of a base has one in the same place of a shorter spelling of the base. -/
theorem exists_shortens_of_mem_directories {base base' dir : Path} (h : Path.Shortens base base')
    (hdir : dir ∈ directories kind subdirs base') :
    ∃ dir' ∈ directories kind subdirs base, Path.Shortens dir' dir := by
  simp only [directories, List.mem_append, List.mem_singleton, List.mem_map] at hdir ⊢
  rcases hdir with (rfl | ⟨sub, hsub, rfl⟩) | rfl
  · exact ⟨_, .inl (.inl rfl), h.join _⟩
  · exact ⟨_, .inl (.inr ⟨sub, hsub, rfl⟩), (h.join _).join _⟩
  · exact ⟨base, .inr rfl, h⟩

end

end Pairing

namespace FileSystem

open Pairing

/-- The candidate is a file, and its components are not those of the given path. -/
def accepts (fs : FileSystem) (file c : Path) : Bool := fs.isFile c && !c.sameAs file

section
variable {fs : FileSystem} {kind : SourceKind} {subdirs : List String} {stem : String}
  {file root c : Path}

theorem accepts_iff :
    fs.accepts file c = true ↔ fs.isFile c = true ∧ c.components ≠ file.components := by
  rw [accepts, Bool.and_eq_true, Bool.not_eq_true', Path.sameAs, beq_eq_false_iff_ne]

/-- A candidate behind a shorter spelling of a directory is accepted when the one behind the longer
is. -/
theorem accepts_join_of_shortens {dir dir' : Path} (h : Path.Shortens dir dir') {name : String}
    (hname : IsEntryName name) (haccepts : fs.accepts file (dir'.join ⟨name⟩) = true) :
    fs.accepts file (dir.join ⟨name⟩) = true := by
  have hcomponents := (h.join ⟨name⟩).components_eq
  obtain ⟨hfile, hne⟩ := accepts_iff.mp haccepts
  obtain ⟨place, hplace, hform⟩ := isFile_iff.mp hfile
  refine accepts_iff.mpr ⟨isFile_iff.mpr ⟨place, ?_, hform⟩, hcomponents ▸ hne⟩
  exact resolve?_of_components_eq hcomponents (Path.endsInStep_join hname _)
    (Path.endsInStep_join hname _) (h.size_join_le hname) hplace

/-- What is accepted in a base has its like in a shorter spelling of the base. -/
theorem exists_accepts_of_shortens (hstem : file.stem? = some stem) {base base' : Path}
    (h : Path.Shortens base base') (hc : c ∈ candidates kind subdirs stem [base'])
    (haccepts : fs.accepts file c = true) :
    ∃ d ∈ candidates kind subdirs stem [base], fs.accepts file d = true := by
  obtain ⟨_, hbase, dir', hdir', hin⟩ := mem_candidates_iff.mp hc
  obtain rfl := List.mem_singleton.mp hbase
  obtain ⟨extension, hextension, rfl⟩ := List.mem_map.mp hin
  obtain ⟨dir, hdir, hshortens⟩ := exists_shortens_of_mem_directories h hdir'
  refine ⟨dir.join ⟨stem ++ "." ++ extension⟩, mem_candidates_iff.mpr ?_, ?_⟩
  · exact ⟨base, List.mem_cons_self, dir, hdir, List.mem_map.mpr ⟨extension, hextension, rfl⟩⟩
  · exact accepts_join_of_shortens hshortens (Path.isEntryName_of_stem? hstem hextension) haccepts

/-- The partner is found as if all three bases were searched. -/
theorem findPartner?_eq
    (hnames : fs.workingDir.gone = 0 → ∀ name ∈ fs.workingDir.location, IsEntryName name)
    (hstem : file.stem? = some stem) :
    fs.findPartner? kind file root subdirs =
      (candidates kind subdirs stem [fs.currentDir, root, file.parent]).find?
        (fs.accepts file) := by
  have hthree : [fs.currentDir, root, file.parent] =
      [fs.currentDir] ++ ([root] ++ [file.parent]) := rfl
  rw [findPartner?, hstem, Option.bind_some, bases, hthree, List.append_assoc]
  split
  · next hsame =>
    have hshortens := shortens_currentDir hnames (beq_iff_eq.mp hsame)
    rw [List.nil_append, candidates_append, candidates_append, candidates_append, List.find?_append,
      List.find?_append, List.find?_append]
    cases hworking : (candidates kind subdirs stem [fs.currentDir]).find? (fs.accepts file) with
    | some c =>
      rw [Option.some_or]
      exact congrArg (Option.or · _) hworking
    | none =>
      -- what the project root has to offer would have been found in the working directory
      have hroot : (candidates kind subdirs stem [root]).find? (fs.accepts file) = none := by
        refine List.find?_eq_none.mpr fun c hc haccepts => ?_
        obtain ⟨d, hd, haccepts'⟩ := exists_accepts_of_shortens hstem hshortens hc haccepts
        exact List.find?_eq_none.mp hworking d hd haccepts'
      rw [hroot, Option.none_or, Option.none_or]
      exact congrArg (Option.or · _) hworking
  · rfl

end

/-! ## A small tree -/

/-- An implementation in the working directory, and a header in the conventional directory. -/
def smallTree : FileSystem :=
  ⟨.dir [("a.c", .file .empty), ("include", .dir [("a.h", .file .empty)])], .root⟩

theorem isSound_smallTree : smallTree.IsSound where
  named := by decide +kernel
  workingDir := rfl

theorem currentDir_smallTree : smallTree.currentDir = ⟨"/"⟩ := by decide +kernel

/-- The header, in whatever way its path is spelled. -/
theorem resolve?_smallTree {p : Path} (hstep : p.EndsInStep) (hsteps : p.steps = ["include", "a.h"])
    (hshort : p.text.utf8ByteSize ≤ maxPathBytes) :
    smallTree.resolve? p = some ⟨["include", "a.h"], 0⟩ := by
  obtain ⟨last, hlast, hstep'⟩ := hstep
  have hstart : startOf smallTree.workingDir p = .root := ite_self _
  have hfilter : p.segments.filter isStep = ["include", "a.h"] := hsteps
  have hdir : turn? smallTree.root maxLinks .root "include" =
      some { links := maxLinks, place := ⟨["include"], 0⟩ } := by decide +kernel
  have hfile : turn? smallTree.root maxLinks ⟨["include"], 0⟩ "a.h" =
      some { links := maxLinks, place := ⟨["include", "a.h"], 0⟩ } := by decide +kernel
  have hempty : ¬(p.text.isEmpty ∨ maxPathBytes < p.text.utf8ByteSize) := by
    rw [String.isEmpty_iff]
    exact not_or.mpr ⟨Path.EndsInStep.text_ne_empty ⟨last, hlast, hstep'⟩, Nat.not_lt.mpr hshort⟩
  rw [resolve?, if_neg hempty, hstart, ← resolveFrom?_filter hlast hstep', hfilter,
    resolveFrom?_cons, hdir, Option.bind_some, List.nil_append, resolveFrom?_cons, hfile,
    Option.bind_some, List.nil_append, resolveFrom?_nil]

theorem resolve?_smallTree_absolute :
    smallTree.resolve? ⟨"/include/a.h"⟩ = some ⟨["include", "a.h"], 0⟩ :=
  resolve?_smallTree ⟨"a.h", by decide +kernel, by decide +kernel⟩ (by decide +kernel)
    (by decide +kernel)

theorem resolve?_smallTree_relative :
    smallTree.resolve? ⟨"include/a.h"⟩ = some ⟨["include", "a.h"], 0⟩ :=
  resolve?_smallTree ⟨"a.h", by decide +kernel, by decide +kernel⟩ (by decide +kernel)
    (by decide +kernel)

/-- The header is the first candidate of all, and a file. -/
theorem isFirst_smallTree {file : Path}
    (h : (Path.components ⟨"/include/a.h"⟩) ≠ file.components) (bases : List Path) :
    IsFirst .header [] "a" (⟨"/"⟩ :: bases) (smallTree.accepts file) ⟨0, 0, 0⟩
      ⟨"/include/a.h"⟩ where
  at_rank := by
    have hjoin : (Path.join (Path.join ⟨"/"⟩ ⟨"include"⟩) ⟨"a" ++ "." ++ "h"⟩) =
        ⟨"/include/a.h"⟩ := by decide +kernel
    exact congrArg some hjoin
  passes := accepts_iff.mpr ⟨isFile_iff.mpr ⟨_, resolve?_smallTree_absolute, rfl⟩, h⟩
  none_before s hs := by
    rcases hs with hlt | ⟨-, hlt | ⟨-, hlt⟩⟩
    · exact absurd hlt (Nat.not_lt_zero _)
    · exact absurd hlt (Nat.not_lt_zero _)
    · exact absurd hlt (Nat.not_lt_zero _)

end FileSystem

end HeaderLint
