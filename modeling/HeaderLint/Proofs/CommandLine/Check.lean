import HeaderLint.CommandLine
import HeaderLint.Proofs.Report.Summary

/-!
# The exit code of a check agrees with what it writes

A check either has a report or gives up, and its exit code tells which (`Outcome.IsOfCheck`).  With
a report the code says whether there are violations, and so does every summary that can be read off
the output.  A check that gives up writes its message to the second stream only, and no failure has
the code of a check with a report (`Failure.exitCode_ne`).

This holds of every accepted argument list (`commandLine_check`).
-/

namespace HeaderLint

namespace Command

/-- Arguments of `check` are accepted only as a check. -/
theorem exists_request_of_check? {args : List String} {command : Command}
    (h : check? args = some command) : ∃ request, command = .check request := by
  simp only [check?, Option.bind_eq_bind, Option.bind_eq_some_iff, Option.pure_def,
    Option.some.injEq] at h
  obtain ⟨_, -, _, -, _, -, _, -, rfl⟩ := h
  exact ⟨_, rfl⟩

theorem parse?_check (args : List String) : parse? ("check" :: args) = check? args := by
  rw [parse?, if_pos rfl]

end Command

/-- The exit codes of a check with a report are left to it. -/
theorem Failure.exitCode_ne (e : Failure) : e.exitCode ≠ 0 ∧ e.exitCode ≠ 1 := by
  cases e <;> simp [exitCode]

namespace Outcome

/-- The exit code and the written summary say of the violations what the report does. -/
structure AgreesWith (o : Outcome) (form : OutputForm) (report : Report) : Prop where
  code : o.code = if report.violations = [] then 0 else 1
  out : o.out = report.render form
  shown : ∃ s : Summary, s.IsShownIn o.out form
  summary : ∀ s : Summary, s.IsShownIn o.out form →
    s.IsOf form report ∧ (o.code = 0 ↔ s.violations = 0)

/-- Only the message of the failure is written, and the exit code is one of a failure. -/
structure GivesUp (o : Outcome) (json : Bool) (e : Failure) : Prop where
  out : o.out = ""
  err : o.err = if json then (Json.obj [("error", .str e.message)]).compact ++ "\n"
    else "error: " ++ e.message ++ "\n"
  code : o.code = e.exitCode
  code_ne_zero : o.code ≠ 0
  code_ne_one : o.code ≠ 1

/-- The outcome is the one that the check has in the file system. -/
structure IsOfCheck (o : Outcome) (fs : FileSystem) (request : CheckRequest) : Prop where
  ok : ∀ report, fs.report request.config request.root request.walkOptions = .ok report →
    o.AgreesWith (.ofFlag request.json) report
  error : ∀ e, fs.report request.config request.root request.walkOptions = .error e →
    o.GivesUp request.json e

theorem givesUp_ofFailure (json : Bool) (e : Failure) : (ofFailure json e).GivesUp json e where
  out := rfl
  err := rfl
  code := rfl
  code_ne_zero := e.exitCode_ne.1
  code_ne_one := e.exitCode_ne.2

theorem agreesWith_render (form : OutputForm) (report : Report) (err : String) :
    AgreesWith ⟨if report.hasViolations then 1 else 0, report.render form, err⟩ form report := by
  have hcode : (if report.hasViolations then 1 else 0) =
      if report.violations = [] then 0 else 1 := by
    rw [ite_cond_congr (propext report.hasViolations_eq_true_iff), ite_not]
  refine ⟨hcode, rfl, ⟨_, Summary.isShownIn_render report form⟩, fun s hs => ?_⟩
  have hof := Summary.isOf_of_isShownIn hs
  refine ⟨hof, ?_⟩
  rw [hcode, hof.violations, ← report.length_violations, List.length_eq_zero_iff, ite_eq_left_iff,
    imp_iff_not Nat.one_ne_zero, not_not]

end Outcome

theorem CheckRequest.isOfCheck_run (request : CheckRequest) (fs : FileSystem) :
    (request.run fs).IsOfCheck fs request := by
  rw [run]
  cases h : fs.report request.config request.root request.walkOptions with
  | error e =>
    refine ⟨fun _ hreport => (nomatch h.symm.trans hreport), fun e' he => ?_⟩
    rw [← Except.error.inj (h.symm.trans he)]
    exact Outcome.givesUp_ofFailure request.json e
  | ok report =>
    refine ⟨fun report' hreport => ?_, fun _ he => (nomatch h.symm.trans he)⟩
    rw [← Except.ok.inj (h.symm.trans hreport)]
    exact Outcome.agreesWith_render _ report _

/-- Every accepted argument list of `check` has the outcome of a check. -/
theorem commandLine_check {fs : FileSystem} {args : List String} {outcome : Outcome}
    (h : commandLine fs ("check" :: args) = some outcome) :
    ∃ request, Command.parse? ("check" :: args) = some (.check request) ∧
      outcome.IsOfCheck fs request := by
  obtain ⟨command, hparse, rfl⟩ := Option.map_eq_some_iff.mp h
  obtain ⟨request, rfl⟩ := Command.exists_request_of_check? (Command.parse?_check args ▸ hparse)
  exact ⟨request, hparse, request.isOfCheck_run fs⟩

/-! ## A check with one violation -/

/-- A tree with a declaration that has no documentation. -/
def FileSystem.oneFile : FileSystem where
  root := .dir [("a.c", .file "int f();".toUTF8)]
  workingDir := .root

/-- The file is checked for itself. -/
def CheckRequest.oneFile : CheckRequest where
  root := ⟨"a.c"⟩
  json := false
  config := { crossReference := false }
  exclude := []
  includeHidden := false
  maxDepth := none
  verbose := false

/-- What is written for the file. -/
def Outcome.oneFile : Outcome where
  code := 1
  out := unlines
    ["a.c:1: error [Docs] missing-documentation: function 'f' has no documentation", "",
      "1 file checked, 1 violation: 1 error, 0 warnings, 0 info"]
  err := ""

namespace FileSystem

theorem resolve?_oneFile : oneFile.resolve? ⟨"a.c"⟩ = some ⟨["a.c"], 0⟩ := by
  have hsegments : Path.segments ⟨"a.c"⟩ = ["a.c"] := by decide +kernel
  have hstart : startOf oneFile.workingDir ⟨"a.c"⟩ = .root := by decide +kernel
  have hroot : Place.root.node? oneFile.root = some oneFile.root := rfl
  rw [resolve?, if_neg (by decide +kernel), hstart, hsegments, resolveFrom?, hroot]
  dsimp only [oneFile]
  rw [if_neg (by decide), if_neg (by decide), List.lookup_cons_self]
  exact resolveFrom?.eq_1 ..

theorem node?_oneFile : oneFile.node? ⟨"a.c"⟩ = some (.file "int f();".toUTF8) := by
  rw [node?, resolve?_oneFile]
  rfl

theorem inventory_oneFile : oneFile.inventory ⟨"a.c"⟩ = .ok (.ofSource ⟨"a.c"⟩ "int f();") := by
  have hdecode : Text.decodeUtf8 "int f();".toUTF8.data.toList = "int f();".toList := by
    decide +kernel
  rw [inventory, read?, node?_oneFile, Option.bind_some, contentOf]
  dsimp only
  rw [hdecode, String.ofList_toList]

theorem fileReport_oneFile :
    oneFile.fileReport CheckRequest.oneFile.config ⟨"a.c"⟩ =
      ⟨⟨"a.c"⟩, some .implementation, 1,
        (Inventory.ofSource ⟨"a.c"⟩ "int f();").docViolations CheckRequest.oneFile.config⟩ := by
  have hkind : SourceKind.ofPath? ⟨"a.c"⟩ = some .implementation := by decide +kernel
  have hcount : (Inventory.ofSource ⟨"a.c"⟩ "int f();").functions.length = 1 := by decide +kernel
  rw [fileReport, inventory_oneFile, ← hkind, ← hcount]
  exact congrArg (FileReport.mk _ _ _) (List.append_nil _)

theorem report_oneFile :
    oneFile.report CheckRequest.oneFile.config ⟨"a.c"⟩ CheckRequest.oneFile.walkOptions =
      .ok ⟨⟨"a.c"⟩, [oneFile.fileReport CheckRequest.oneFile.config ⟨"a.c"⟩]⟩ := by
  have hentry : SourceEntry.ofPath? ⟨"a.c"⟩ = some ⟨⟨"a.c"⟩, .implementation⟩ := by decide +kernel
  have hsource : oneFile.sourceFiles ⟨"a.c"⟩ CheckRequest.oneFile.walkOptions =
      .ok [⟨⟨"a.c"⟩, .implementation⟩] := by
    rw [sourceFiles, resolve?_oneFile, isFile, node?_oneFile, hentry]
    rfl
  have hconfig : oneFile.runConfig CheckRequest.oneFile.config ⟨"a.c"⟩ =
      CheckRequest.oneFile.config := by
    rw [runConfig, isDir, node?_oneFile]
    rfl
  rw [report, hsource, hconfig]
  rfl

end FileSystem

theorem commandLine_oneFile :
    commandLine .oneFile ["check", "--no-xref", "a.c"] = some .oneFile := by
  have hrequest : Command.parse? ["check", "--no-xref", "a.c"] = some (.check .oneFile) := by
    decide +kernel
  have hroot : CheckRequest.oneFile.root = ⟨"a.c"⟩ := rfl
  rw [commandLine, hrequest, Option.map_some, Command.run, CheckRequest.run, hroot,
    FileSystem.report_oneFile, FileSystem.fileReport_oneFile]
  decide +kernel

theorem commandLine_check_oneFile :
    commandLine .oneFile ["check", "--no-xref", "a.c"] = some .oneFile ∧
      ∃ request, Command.parse? ["check", "--no-xref", "a.c"] = some (.check request) ∧
        Outcome.oneFile.IsOfCheck .oneFile request :=
  ⟨commandLine_oneFile, commandLine_check commandLine_oneFile⟩

end HeaderLint
