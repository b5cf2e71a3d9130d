import HeaderLint.Proofs.Pairing.Candidates

/-!
# The partner by priority

The partner of a path is the candidate with the first rank that is a file and is not spelled like
the path, and there is none just when no candidate is.  So a file that is made matters only if a
candidate stands for it: then the partner is that candidate or what it was before.  A file that is
removed matters only if the partner stood for it.

All this is `FileSystem.findPartner?_priority`.  A candidate may stand for a file by way of a link
or of `..`, so the place it stands for counts and not how it is spelled.  The directory of a file is
there before the file is made: making a directory is another change, which may clear the way for a
candidate that goes through it and up again.
-/

namespace HeaderLint

namespace FileSystem

open Pairing

section
variable {fs fs' : FileSystem} {kind : SourceKind} {subdirs : List String} {stem : String}
  {file root : Path} {l : Location}

/-- When more of a list passes a test, the first that does is what it was or one of the new. -/
theorem find?_eq_or_exists_new {p p' : Path → Bool} {new : Path → Prop}
    (h : ∀ c, p' c = true ↔ p c = true ∨ new c) (cs : List Path) :
    cs.find? p' = cs.find? p ∨ ∃ c ∈ cs, new c ∧ cs.find? p' = some c := by
  induction cs with
  | nil => exact .inl rfl
  | cons c cs ih =>
    by_cases hp : p c = true
    · refine .inl ?_
      rw [List.find?_cons_of_pos hp, List.find?_cons_of_pos ((h c).mpr (.inl hp))]
    by_cases hp' : p' c = true
    · refine .inr ⟨c, List.mem_cons_self, ?_, List.find?_cons_of_pos hp'⟩
      exact ((h c).mp hp').resolve_left hp
    · rw [List.find?_cons_of_neg hp, List.find?_cons_of_neg hp']
      exact ih.imp_right fun ⟨d, hd, hfound⟩ => ⟨d, List.mem_cons_of_mem c hd, hfound⟩

/-- The candidate with some rank that stands for the file at a location. -/
structure IsCandidateFor (fs : FileSystem) (kind : SourceKind) (subdirs : List String)
    (stem : String) (bases : List Path) (l : Location) (c : Path) : Prop where
  has_rank : ∃ r, candidateAt? kind subdirs stem bases r = some c
  resolve? : fs.resolve? c = some ⟨l, 0⟩

/-- With one file more the partner is what it was, or a candidate that stands for the file. -/
theorem AddsFile.findPartner? (h : AddsFile l fs fs')
    (hnames : fs.workingDir.gone = 0 → ∀ name ∈ fs.workingDir.location, IsEntryName name)
    (hstem : file.stem? = some stem) :
    fs'.findPartner? kind file root subdirs = fs.findPartner? kind file root subdirs ∨
      ∃ c, fs'.IsCandidateFor kind subdirs stem [fs.currentDir, root, file.parent] l c ∧
        fs'.findPartner? kind file root subdirs = some c := by
  have haccepts : ∀ c, fs'.accepts file c = true ↔ fs.accepts file c = true ∨
      fs'.resolve? c = some ⟨l, 0⟩ ∧ c.components ≠ file.components := by
    intro c
    rw [accepts_iff, accepts_iff, h.isFile_iff, or_and_right]
  rw [findPartner?_eq hnames hstem, findPartner?_eq (h.workingDir ▸ hnames) hstem, h.currentDir_eq]
  refine (find?_eq_or_exists_new haccepts _).imp_right ?_
  rintro ⟨c, hc, ⟨hresolve, -⟩, hfound⟩
  exact ⟨c, ⟨mem_candidates_iff_rank.mp hc, hresolve⟩, hfound⟩

/-- The partner is the candidate with the first rank that is accepted.  A file that is made or
removed changes it only when a candidate stands for the file, and a new partner stands for the new
file. -/
theorem findPartner?_priority (hfs : fs.IsSound) (hstem : file.stem? = some stem) :
    (∀ c, fs.findPartner? kind file root subdirs = some c ↔
      ∃ r, IsFirst kind subdirs stem [fs.currentDir, root, file.parent] (fs.accepts file) r c) ∧
    (fs.findPartner? kind file root subdirs = none ↔
      ∀ r c, candidateAt? kind subdirs stem [fs.currentDir, root, file.parent] r = some c →
        fs.accepts file c = false) ∧
    (∀ p l content, fs.entryLocation? p = some l → fs.root.at? l = none →
      (fs.write p content).findPartner? kind file root subdirs =
          fs.findPartner? kind file root subdirs ∨
        ∃ c, (fs.write p content).IsCandidateFor kind subdirs stem
            [fs.currentDir, root, file.parent] l c ∧
          (fs.write p content).findPartner? kind file root subdirs = some c) ∧
    ∀ p l, fs.entryLocation? p = some l → (fs.root.at? l).any Node.isFile = true →
      (fs.remove p).findPartner? kind file root subdirs =
          fs.findPartner? kind file root subdirs ∨
        ∃ c, fs.IsCandidateFor kind subdirs stem [fs.currentDir, root, file.parent] l c ∧
          fs.findPartner? kind file root subdirs = some c := by
  refine ⟨fun c => ?_, ?_, fun p l content hl hnone => ?_, fun p l hl hfile => ?_⟩
  · rw [findPartner?_eq hfs.isEntryName hstem]
    exact find?_candidates_iff
  · rw [findPartner?_eq hfs.isEntryName hstem, List.find?_eq_none]
    constructor
    · intro h r c hc
      exact Bool.not_eq_true _ ▸ h c (mem_candidates_iff_rank.mpr ⟨r, hc⟩)
    · intro h c hc
      obtain ⟨r, hr⟩ := mem_candidates_iff_rank.mp hc
      exact Bool.not_eq_true _ ▸ h r c hr
  · exact (addsFile_write hl hnone content).findPartner? hfs.isEntryName hstem
  · have hremove := addsFile_remove hfs hl hfile
    rw [hremove.currentDir_eq]
    exact (hremove.findPartner? (hremove.workingDir ▸ hfs.isEntryName) hstem).imp_left Eq.symm

/-- The header in the conventional directory is the partner of the implementation, though the
project root is the working directory spelled in another way. -/
theorem findPartner?_priority_smallTree :
    smallTree.IsSound ∧ Path.stem? ⟨"a.c"⟩ = some "a" ∧
      smallTree.findPartner? .header ⟨"a.c"⟩ ⟨"/./"⟩ [] = some ⟨"/include/a.h"⟩ := by
  have hstem : Path.stem? ⟨"a.c"⟩ = some "a" := by decide +kernel
  refine ⟨isSound_smallTree, hstem, ?_⟩
  refine ((findPartner?_priority isSound_smallTree hstem).1 _).mpr ⟨⟨0, 0, 0⟩, ?_⟩
  rw [currentDir_smallTree]
  exact isFirst_smallTree (by decide +kernel) _

end

end FileSystem

end HeaderLint
