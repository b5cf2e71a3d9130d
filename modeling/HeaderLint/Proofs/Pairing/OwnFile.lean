import HeaderLint.Proofs.Pairing.Candidates

/-!
# When a file is its own partner

A candidate that is spelled like the given path is passed over.  The same file spelled in another
way is not: `include/a.h` as a header finds `/include/a.h` below the working directory `/`
(`FileSystem.findPartner?_header_of_header`).

In a tree without links a place is named by the last step of any path that stands for it.  So a
candidate that stands for the given file has the extension of that file.  A file is its own partner
just when the first candidate that is accepted is of that sort, and never when it is of the other
kind than the one that is looked for (`FileSystem.findPartner?_ownFile`).
-/

namespace HeaderLint

/-! ## Trees without links -/

/-- No node of the tree is a link. -/
def Node.IsLinkFree (n : Node) : Prop := ∀ l target, n.at? l ≠ some (.link target)

theorem Node.IsLinkFree.file (content : ByteArray) : (Node.file content).IsLinkFree := by
  rintro (_ | ⟨name, names⟩) target h
  · cases h
  · cases h

theorem Node.IsLinkFree.dir {entries : List (String × Node)}
    (h : ∀ e ∈ entries, e.2.IsLinkFree) : (Node.dir entries).IsLinkFree := by
  rintro (_ | ⟨name, names⟩) target hlink
  · cases hlink
  · obtain ⟨child, hchild, hlink⟩ := Option.bind_eq_some_iff.mp hlink
    exact h _ (mem_entries_of_child? hchild) names target hlink

theorem FileSystem.isLinkFree_smallTree : smallTree.root.IsLinkFree :=
  .dir (List.forall_mem_cons.mpr
    ⟨.file _, List.forall_mem_singleton.mpr (.dir (List.forall_mem_singleton.mpr (.file _)))⟩)

namespace FileSystem

open Pairing

section
variable {root : Node} {links : Nat} {here place : Place}

theorem entryForm?_ne_link (h : root.IsLinkFree) {name : String} {target : Path} :
    here.entryForm? root name ≠ some (.link target) := by
  rw [Place.entryForm?_eq]
  split
  · intro hform
    obtain ⟨n, hn, hform⟩ := Option.map_eq_some_iff.mp hform
    cases n with
    | link other => exact h _ _ hn
    | file content => cases hform
    | dir entries => cases hform
  · nofun

/-- A path whose last segment is a name stands for an entry with that name. -/
theorem exists_child_of_getLast? (h : root.IsLinkFree) {segments : List String} {name : String}
    (hlast : segments.getLast? = some name) (hstep : isStep name = true) (hup : name ≠ "..")
    (hplace : resolveFrom? root links here segments = some place) :
    ∃ dir : Place, place = dir.child name := by
  obtain ⟨links', dir, t, hturn, ht⟩ := exists_turn?_of_getLast? hlast hplace
  rw [turn?] at hturn
  split at hturn
  · rw [if_neg (not_or.mpr (isStep_iff.mp hstep)), if_neg hup, Option.bind_eq_some_iff] at hturn
    obtain ⟨form, hform, hturn⟩ := hturn
    refine ⟨dir, ?_⟩
    cases form with
    | link target => exact absurd hform (entryForm?_ne_link h)
    | file =>
      cases hturn
      exact Option.some.inj (ht.symm.trans resolveFrom?_nil)
    | dir =>
      cases hturn
      exact Option.some.inj (ht.symm.trans resolveFrom?_nil)
  · cases hturn

/-- A path that stands for a file ends in a step. -/
theorem isStep_of_form?_eq_file {segments : List String} {last : String}
    (hlast : segments.getLast? = some last)
    (hplace : resolveFrom? root links here segments = some place)
    (hfile : place.form? root = some .file) : isStep last = true := by
  obtain ⟨links', dir, t, hturn, ht⟩ := exists_turn?_of_getLast? hlast hplace
  cases hstep : isStep last with
  | true => rfl
  | false =>
    rw [turn?] at hturn
    split at hturn
    · next hdir =>
      rw [if_pos (isStep_eq_false_iff.mp hstep)] at hturn
      cases hturn
      rw [Option.some.inj (ht.symm.trans resolveFrom?_nil), hdir] at hfile
      cases hfile
    · cases hturn

end

section
variable {fs : FileSystem} {p : Path} {place : Place}

theorem resolveFrom?_of_resolve? (h : fs.resolve? p = some place) :
    resolveFrom? fs.root maxLinks (startOf fs.workingDir p) p.segments = some place := by
  rw [resolve?] at h
  split at h
  · cases h
  · exact h

/-- In a tree without links the name of a file is the last segment of every path that stands for
it. -/
theorem getLast?_segments_of_isFile (hlinks : fs.root.IsLinkFree) {name : String}
    (hname : p.fileName? = some name) (hplace : fs.resolve? p = some place)
    (hfile : place.form? fs.root = some .file) : place.location.getLast? = some name := by
  have hresolve := resolveFrom?_of_resolve? hplace
  obtain ⟨front, last, hsegments⟩ : ∃ front last, p.segments = front ++ [last] :=
    ⟨_, _, (List.dropLast_concat_getLast p.segments_ne_nil).symm⟩
  have hlast : p.segments.getLast? = some last := by rw [hsegments, List.getLast?_concat]
  have hstep := isStep_of_form?_eq_file hlast hresolve hfile
  obtain ⟨rfl, hup⟩ : last = name ∧ last ≠ ".." := by
    rw [Path.fileName?_eq hlast hstep] at hname
    split at hname
    · cases hname
    · next hup => exact ⟨Option.some.inj hname, hup⟩
  obtain ⟨dir, rfl⟩ := exists_child_of_getLast? hlinks hlast hstep hup hresolve
  exact List.getLast?_concat

end

/-! ## The given file as a candidate -/

section
variable {fs : FileSystem} {kind : SourceKind} {subdirs : List String} {stem : String}
  {bases : List Path} {file root c : Path} {r : Rank}

/-- A candidate that stands for the given file has the extension of that file. -/
theorem extension_eq_of_resolve?_eq (hlinks : fs.root.IsLinkFree) (hstem : file.stem? = some stem)
    (hc : candidateAt? kind subdirs stem bases r = some c) (hfile : fs.isFile c = true)
    (hsame : fs.resolve? c = fs.resolve? file) :
    ∃ extension ∈ kind.extensions,
      kind.extensions[r.extension]? = some extension ∧ file.extension? = some extension := by
  obtain ⟨base, dir, extension, -, -, hextension, rfl⟩ := candidateAt?_eq_some_iff.mp hc
  have hmem := List.mem_of_getElem? hextension
  have hentry := Path.isEntryName_of_stem? hstem hmem
  obtain ⟨name, hname, -⟩ := Option.map_eq_some_iff.mp hstem
  have hlast : (dir.join ⟨stem ++ "." ++ extension⟩).fileName? =
      some (stem ++ "." ++ extension) := by
    rw [Path.fileName?_eq (Path.getLast?_segments_join hentry dir) hentry.isStep,
      if_neg hentry.ne_up]
  -- both paths stand for one place, so their last segments are the same name
  obtain ⟨place, hplace, hform⟩ := isFile_iff.mp hfile
  have hcandidate := getLast?_segments_of_isFile hlinks hlast hplace hform
  have hgiven := getLast?_segments_of_isFile hlinks hname (hsame ▸ hplace) hform
  obtain rfl : stem ++ "." ++ extension = name :=
    Option.some.inj (hcandidate.symm.trans hgiven)
  refine ⟨extension, hmem, hextension, ?_⟩
  rw [Path.extension?, hname, Option.bind_some,
    Path.splitName_append (Path.ne_empty_of_stem? hstem)
      (SourceKind.of_mem_extensions hmem).2.2.1]

/-- A file is its own partner just when the first candidate that is accepted stands for it, which
has the extension of the file then.  A file of the other kind never is. -/
theorem findPartner?_ownFile (hfs : fs.IsSound) (hlinks : fs.root.IsLinkFree)
    (hstem : file.stem? = some stem) :
    ((∃ c, fs.findPartner? kind file root subdirs = some c ∧ fs.resolve? c = fs.resolve? file) ↔
      ∃ r c, IsFirst kind subdirs stem [fs.currentDir, root, file.parent] (fs.accepts file) r c ∧
        kind.extensions[r.extension]? = file.extension? ∧ fs.resolve? c = fs.resolve? file) ∧
    (SourceKind.ofPath? file ≠ some kind →
      ∀ c, fs.findPartner? kind file root subdirs = some c → fs.resolve? c ≠ fs.resolve? file) := by
  have hfound : ∀ c, fs.findPartner? kind file root subdirs = some c ↔
      ∃ r, IsFirst kind subdirs stem [fs.currentDir, root, file.parent] (fs.accepts file) r c := by
    intro c
    rw [findPartner?_eq hfs.isEntryName hstem]
    exact find?_candidates_iff
  refine ⟨⟨?_, ?_⟩, fun hkind c hc hsame => ?_⟩
  · rintro ⟨c, hc, hsame⟩
    obtain ⟨r, hfirst⟩ := (hfound c).mp hc
    obtain ⟨extension, -, hrank, hfile⟩ := extension_eq_of_resolve?_eq hlinks hstem hfirst.at_rank
      (accepts_iff.mp hfirst.passes).1 hsame
    exact ⟨r, c, hfirst, hrank.trans hfile.symm, hsame⟩
  · rintro ⟨r, c, hfirst, -, hsame⟩
    exact ⟨c, (hfound c).mpr ⟨r, hfirst⟩, hsame⟩
  · obtain ⟨r, hfirst⟩ := (hfound c).mp hc
    obtain ⟨extension, hmem, -, hfile⟩ := extension_eq_of_resolve?_eq hlinks hstem hfirst.at_rank
      (accepts_iff.mp hfirst.passes).1 hsame
    refine hkind ?_
    rw [SourceKind.ofPath?, hfile, Option.bind_some]
    exact (SourceKind.of_mem_extensions hmem).2.2.2

end

theorem findPartner?_ownFile_smallTree :
    smallTree.IsSound ∧ smallTree.root.IsLinkFree ∧ Path.stem? ⟨"include/a.h"⟩ = some "a" ∧
      ∃ c, smallTree.findPartner? .header ⟨"include/a.h"⟩ ⟨"/"⟩ [] = some c ∧
        smallTree.resolve? c = smallTree.resolve? ⟨"include/a.h"⟩ := by
  have hstem : Path.stem? ⟨"include/a.h"⟩ = some "a" := by decide +kernel
  refine ⟨isSound_smallTree, isLinkFree_smallTree, hstem, ?_⟩
  refine (findPartner?_ownFile isSound_smallTree isLinkFree_smallTree hstem).1.mpr
    ⟨⟨0, 0, 0⟩, ⟨"/include/a.h"⟩, ?_, by decide +kernel, ?_⟩
  · rw [currentDir_smallTree]
    exact isFirst_smallTree (by decide +kernel) _
  · rw [resolve?_smallTree_absolute, resolve?_smallTree_relative]

/-- The header is spelled from the working directory, and found there with its absolute path. -/
theorem findPartner?_header_of_header :
    smallTree.IsSound ∧ smallTree.root.IsLinkFree ∧ smallTree.isFile ⟨"include/a.h"⟩ = true ∧
      smallTree.findPartner? .header ⟨"include/a.h"⟩ ⟨"/"⟩ [] = some ⟨"/include/a.h"⟩ ∧
      smallTree.resolve? ⟨"/include/a.h"⟩ = smallTree.resolve? ⟨"include/a.h"⟩ := by
  refine ⟨isSound_smallTree, isLinkFree_smallTree, ?_, ?_, ?_⟩
  · exact isFile_iff.mpr ⟨_, resolve?_smallTree_relative, rfl⟩
  · rw [findPartner?_eq isSound_smallTree.isEntryName (show _ = some "a" by decide +kernel),
      currentDir_smallTree]
    exact find?_candidates_iff.mpr ⟨⟨0, 0, 0⟩, isFirst_smallTree (by decide +kernel) _⟩
  · rw [resolve?_smallTree_absolute, resolve?_smallTree_relative]

end FileSystem

end HeaderLint
