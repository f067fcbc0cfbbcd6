import PlatformBundle.Proofs.FileSteps
import PlatformBundle.Webpack
/-!
The outcome of a run of the bundling tool. Four things decide it together: whether the report can
be read, the errors in it, the exit status and the chunks on the disk. A run is a success only when
all four are well, and every other run says why.
-/

namespace PlatformBundle.Webpack

/-- The report that a run has printed, if it can be read. -/
def printedReport (output : ToolOutput) : Option Json := Json.read (Text.trim output.stdout.toList)

/-- No errors stand in the report: they are missing, no array or an empty one. -/
def Faultless (report : Json) : Prop :=
  ∀ errors, report.member? "errors" = some (.array errors) → errors = []

theorem faultless_iff (report : Json) : Faultless report ↔ Report.errors report = [] := by
  unfold Faultless Report.errors
  split
  · rename_i errors listed
    constructor
    · intro faultless
      exact faultless errors listed
    · intro empty others same
      rw [listed] at same
      cases same
      exact empty
  · rename_i other
    exact ⟨fun _ => rfl, fun _ errors listed => absurd listed (other errors)⟩

theorem errors_of_member {report : Json} {errors : List Json}
    (listed : report.member? "errors" = some (.array errors)) :
    Report.errors report = errors := by
  rw [Report.errors, listed]

section Judging

variable {config : BundleConfig} {disk : Disk} {output : ToolOutput}

theorem messagesOf_readable {report : Json} (printed : printedReport output = some report) :
    messagesOf output = .ok ((Report.errors report).map Report.errorText) := by
  unfold printedReport at printed
  simp only [messagesOf, Report.messages, printed]

theorem messagesOf_unreadable (printed : printedReport output = none) :
    messagesOf output =
      if output.status.isSuccess then .error (.general "could not read webpack stats")
      else .ok output.stderrTail := by
  unfold printedReport at printed
  simp only [messagesOf, Report.messages, printed]

theorem judge_messages {messages : List String} (said : messagesOf output = .ok messages)
    (some : messages ≠ []) :
    judge config disk output = .error (.compileFailed (Report.diagnostics config messages)) := by
  obtain ⟨first, rest, rfl⟩ := List.exists_cons_of_ne_nil some
  rw [judge, said]
  rfl

theorem judge_silent_failure (said : messagesOf output = .ok [])
    (failed : output.status.isSuccess = false) :
    judge config disk output = .error (.compileFailed [⟨exitText output, none⟩]) := by
  rw [judge, said]
  simp only [bind, Except.bind, failed, Bool.false_eq_true, if_false]

theorem judge_silent_success (said : messagesOf output = .ok [])
    (succeeded : output.status.isSuccess = true) :
    judge config disk output =
      if config.absentChunks disk = [] then .ok ()
      else .error (.compileFailed
        ((config.absentChunks disk).map (config.missingReport disk))) := by
  rw [judge, said]
  simp only [bind, Except.bind, succeeded, if_true, BundleConfig.verifyOutputs_onDisk]

/-- Every way in which a run can be judged. -/
inductive Judged (config : BundleConfig) (disk : Disk) (output : ToolOutput) :
    Except Fault Unit → Prop where
  | unreadable (printed : printedReport output = none)
      (succeeded : output.status.isSuccess = true) :
      Judged config disk output (.error (.general "could not read webpack stats"))
  | reported (report : Json) (printed : printedReport output = some report)
      (errors : Report.errors report ≠ []) :
      Judged config disk output (.error (.compileFailed
        (Report.diagnostics config ((Report.errors report).map Report.errorText))))
  | shouted (printed : printedReport output = none) (failed : output.status.isSuccess = false)
      (lines : output.stderrTail ≠ []) :
      Judged config disk output
        (.error (.compileFailed (Report.diagnostics config output.stderrTail)))
  | exited (faultless : ∀ report, printedReport output = some report → Report.errors report = [])
      (failed : output.status.isSuccess = false) :
      Judged config disk output (.error (.compileFailed [⟨exitText output, none⟩]))
  | incomplete (report : Json) (printed : printedReport output = some report)
      (faultless : Report.errors report = []) (succeeded : output.status.isSuccess = true)
      (absent : config.absentChunks disk ≠ []) :
      Judged config disk output (.error (.compileFailed
        ((config.absentChunks disk).map (config.missingReport disk))))
  | complete (report : Json) (printed : printedReport output = some report)
      (faultless : Report.errors report = []) (succeeded : output.status.isSuccess = true)
      (present : config.absentChunks disk = []) :
      Judged config disk output (.ok ())

theorem judge_judged (config : BundleConfig) (disk : Disk) (output : ToolOutput) :
    Judged config disk output (judge config disk output) := by
  cases printed : printedReport output with
  | none =>
      have said := messagesOf_unreadable printed
      cases status : output.status.isSuccess with
      | true =>
          rw [status, if_pos rfl] at said
          rw [judge, said]
          exact .unreadable printed status
      | false =>
          rw [status, if_neg Bool.false_ne_true] at said
          by_cases quiet : output.stderrTail = []
          · rw [quiet] at said
            rw [judge_silent_failure said status]
            refine .exited ?_ status
            intro report read
            rw [printed] at read
            cases read
          · rw [judge_messages said quiet]
            exact .shouted printed status quiet
  | some report =>
      have said := messagesOf_readable printed
      by_cases faultless : Report.errors report = []
      · rw [faultless, List.map_nil] at said
        cases status : output.status.isSuccess with
        | false =>
            rw [judge_silent_failure said status]
            refine .exited ?_ status
            intro other read
            rw [printed] at read
            cases read
            exact faultless
        | true =>
            rw [judge_silent_success said status]
            split
            · exact .complete report printed faultless status (by assumption)
            · exact .incomplete report printed faultless status (by assumption)
      · rw [judge_messages said (by simpa using faultless)]
        exact .reported report printed faultless

end Judging

theorem bundle_of_child {host : Host} {settings : WebpackSettings} {disk written : Disk}
    {config : BundleConfig} {root program : Path} {child : Child}
    (wrote : (writeModule settings config root).onDisk disk = (.ok (), written))
    (found : ToolSearch.resolve host written "webpack" settings.program (some root) = .ok program)
    (ended : host.spawn written root program (arguments settings) = .ok child) :
    bundle host settings disk config root =
      ⟨judge config child.disk (child.output true), child.disk, child.lines "webpack" true⟩ := by
  unfold bundle
  rw [wrote]
  dsimp only
  rw [found]
  simp only [runWith, Host.run, ended, Except.bind]
  rfl

namespace Judged

variable {config : BundleConfig} {disk : Disk} {output : ToolOutput} {result : Except Fault Unit}

theorem ok_iff (judged : Judged config disk output result) :
    result = .ok () ↔ output.status.isSuccess = true ∧
      (∃ report, printedReport output = some report ∧ Report.errors report = []) ∧
      config.absentChunks disk = [] := by
  cases judged with
  | complete report printed faultless succeeded present =>
      exact ⟨fun _ => ⟨succeeded, ⟨report, printed, faultless⟩, present⟩, fun _ => rfl⟩
  | unreadable printed succeeded =>
      constructor
      · intro wrong
        cases wrong
      · rintro ⟨-, ⟨report, read, -⟩, -⟩
        rw [printed] at read
        cases read
  | reported report printed errors =>
      constructor
      · intro wrong
        cases wrong
      · rintro ⟨-, ⟨other, read, faultless⟩, -⟩
        rw [printed] at read
        cases read
        exact absurd faultless errors
  | shouted printed failed lines =>
      constructor
      · intro wrong
        cases wrong
      · rintro ⟨succeeded, -, -⟩
        rw [failed] at succeeded
        cases succeeded
  | exited faultless failed =>
      constructor
      · intro wrong
        cases wrong
      · rintro ⟨succeeded, -, -⟩
        rw [failed] at succeeded
        cases succeeded
  | incomplete report printed faultless succeeded absent =>
      constructor
      · intro wrong
        cases wrong
      · rintro ⟨-, -, present⟩
        exact absurd present absent

theorem of_errors (judged : Judged config disk output result) {report : Json}
    (printed : printedReport output = some report) (errors : Report.errors report ≠ []) :
    result = .error (.compileFailed
      (Report.diagnostics config ((Report.errors report).map Report.errorText))) := by
  cases judged with
  | reported other read _ =>
      rw [printed] at read
      cases read
      rfl
  | unreadable unread _ =>
      rw [printed] at unread
      cases unread
  | shouted unread _ _ =>
      rw [printed] at unread
      cases unread
  | exited faultless _ => exact absurd (faultless report printed) errors
  | incomplete other read faultless _ _ =>
      rw [printed] at read
      cases read
      exact absurd faultless errors
  | complete other read faultless _ _ =>
      rw [printed] at read
      cases read
      exact absurd faultless errors

theorem of_failure (judged : Judged config disk output result)
    (failed : output.status.isSuccess = false) :
    ∃ diagnostics, result = .error (.compileFailed diagnostics) := by
  cases judged with
  | reported _ _ _ => exact ⟨_, rfl⟩
  | shouted _ _ _ => exact ⟨_, rfl⟩
  | exited _ _ => exact ⟨_, rfl⟩
  | incomplete _ _ _ _ _ => exact ⟨_, rfl⟩
  | unreadable _ succeeded =>
      rw [failed] at succeeded
      cases succeeded
  | complete _ _ _ succeeded _ =>
      rw [failed] at succeeded
      cases succeeded

theorem of_absent (judged : Judged config disk output result)
    (succeeded : output.status.isSuccess = true) {report : Json}
    (printed : printedReport output = some report) (faultless : Report.errors report = [])
    (absent : config.absentChunks disk ≠ []) :
    result = .error (.compileFailed
      ((config.absentChunks disk).map (config.missingReport disk))) := by
  cases judged with
  | incomplete _ _ _ _ _ => rfl
  | unreadable unread _ =>
      rw [printed] at unread
      cases unread
  | reported other read errors =>
      rw [printed] at read
      cases read
      exact absurd faultless errors
  | shouted unread _ _ =>
      rw [printed] at unread
      cases unread
  | exited _ failed =>
      rw [failed] at succeeded
      cases succeeded
  | complete _ _ _ _ present => exact absurd present absent

theorem diagnostics_ne_nil {diagnostics : List Diagnostic}
    (judged : Judged config disk output (.error (.compileFailed diagnostics))) :
    diagnostics ≠ [] := by
  cases judged with
  | reported report _ errors => simpa [Report.diagnostics] using errors
  | shouted _ _ lines => simpa [Report.diagnostics] using lines
  | exited _ _ => simp
  | incomplete _ _ _ _ absent => simpa using absent

end Judged

/-- The tool was found and has run: what its run comes to. -/
theorem bundle_outcome {host : Host} {settings : WebpackSettings} {disk written : Disk}
    {config : BundleConfig} {root program : Path} {child : Child}
    (wrote : (writeModule settings config root).onDisk disk = (.ok (), written))
    (found : ToolSearch.resolve host written "webpack" settings.program (some root) = .ok program)
    (ended : host.spawn written root program (arguments settings) = .ok child) :
    let result := (bundle host settings disk config root).result
    let printed := printedReport (child.output true)
    let expected : List Path := config.outputPath / config.sharedChunk ::
      config.entry.keys.map (fun stagedPath => config.outputPath / stagedPath)
    (result = .ok () ↔ child.status.isSuccess = true ∧
      (∃ report, printed = some report ∧ Faultless report) ∧
      ∀ chunk ∈ expected, child.disk.exists? chunk = true) ∧
    (∀ report errors, printed = some report → report.member? "errors" = some (.array errors) →
      errors ≠ [] → result = .error (.compileFailed
        (errors.map (fun error => Report.attributed config (Report.errorText error))))) ∧
    (child.status.isSuccess = false →
      ∃ diagnostics, result = .error (.compileFailed diagnostics)) ∧
    (child.status.isSuccess = true → (∃ report, printed = some report ∧ Faultless report) →
      (∃ chunk ∈ expected, child.disk.exists? chunk = false) →
      result = .error (.compileFailed
        ((expected.filter (fun chunk => !child.disk.exists? chunk)).map
          (config.missingReport child.disk)))) ∧
    ∀ diagnostics, result = .error (.compileFailed diagnostics) → diagnostics ≠ [] := by
  intro result printed expected
  have judged : Judged config child.disk (child.output true) result := by
    have same : result = judge config child.disk (child.output true) :=
      congrArg ToolRun.result (bundle_of_child wrote found ended)
    rw [same]
    exact judge_judged config child.disk (child.output true)
  have none_absent : config.absentChunks child.disk = [] ↔
      ∀ chunk ∈ expected, child.disk.exists? chunk = true :=
    BundleConfig.absentChunks_eq_nil_iff
  refine ⟨?_, ?_, judged.of_failure, ?_, ?_⟩
  · simp only [faultless_iff, ← none_absent]
    exact judged.ok_iff
  · intro report errors read listed nonempty
    have same := errors_of_member listed
    rw [judged.of_errors read (by rwa [same]), same, Report.diagnostics, List.map_map]
    rfl
  · rintro succeeded ⟨report, read, faultless⟩ ⟨chunk, listed, absent⟩
    refine judged.of_absent succeeded read ((faultless_iff report).mp faultless) ?_
    intro present
    rw [none_absent.mp present chunk listed] at absent
    cases absent
  · intro diagnostics same
    rw [same] at judged
    exact judged.diagnostics_ne_nil

section CleanRun

def cleanSettings : WebpackSettings := ⟨some ⟨"/r/webpack"⟩, "webpack.config.js"⟩

def cleanConfig : BundleConfig :=
  ((BundleConfig.start ⟨"/r"⟩ "shared.js" none).addEntry "b/module.js").addEntry "a/module.js"

def cleanDisk (chunks : List (RealPath × Node)) : Disk where
  tree := ⟨[(["r"], .directory), (["r", "webpack"], .file .empty true),
    (["r", "built"], .directory), (["r", "built", "shared.js"], .file .empty false),
    (["r", "built", "a"], .directory), (["r", "built", "b"], .directory)] ++ chunks⟩
  workdir := []

def cleanChunk (package : String) : RealPath × Node :=
  (["r", "built", package, "module.js"], .file .empty false)

def cleanChild (disk : Disk) : Child := ⟨.code 0, "\x7b\x7d".toUTF8.data.toList, [], disk⟩

def cleanHost : Host := ⟨[], fun disk _ _ _ => .ok (cleanChild disk)⟩

theorem cleanChild_report (disk : Disk) : ∃ report,
    printedReport ((cleanChild disk).output true) = some report ∧ Faultless report := by
  have same : (cleanChild disk).output true = (cleanChild ⟨.empty, []⟩).output true := rfl
  have empty : ((printedReport ((cleanChild ⟨.empty, []⟩).output true)).any
      (fun report => (Report.errors report).isEmpty)) = true := by decide
  obtain ⟨report, printed, faultless⟩ := (Option.any_eq_true _ _).mp empty
  rw [same]
  exact ⟨report, printed, (faultless_iff report).mpr (List.isEmpty_iff.mp faultless)⟩

/-- A tool that prints an empty report is done when the chunks of all entries are in place, and
otherwise each chunk that is missing is reported. -/
theorem bundle_clean_run :
    (bundle cleanHost cleanSettings (cleanDisk [cleanChunk "a", cleanChunk "b"]) cleanConfig
      ⟨"/r"⟩).result = .ok () ∧
    ∃ left, (bundle cleanHost cleanSettings (cleanDisk []) cleanConfig ⟨"/r"⟩).result =
      .error (.compileFailed ([⟨"/r/built/a/module.js"⟩, ⟨"/r/built/b/module.js"⟩].map
        (cleanConfig.missingReport left))) := by
  let written (chunks : List (RealPath × Node)) :=
    ((writeModule cleanSettings cleanConfig ⟨"/r"⟩).onDisk (cleanDisk chunks)).2
  have outcome (chunks : List (RealPath × Node))
      (wrote : (writeModule cleanSettings cleanConfig ⟨"/r"⟩).onDisk (cleanDisk chunks) =
        (.ok (), written chunks))
      (found : ToolSearch.resolve cleanHost (written chunks) "webpack" cleanSettings.program
        (some ⟨"/r"⟩) = .ok ⟨"/r/webpack"⟩) := bundle_outcome wrote found rfl
  constructor
  · obtain ⟨succeeds, -⟩ := outcome [cleanChunk "a", cleanChunk "b"] rfl rfl
    exact succeeds.mpr ⟨rfl, cleanChild_report _, by decide⟩
  · obtain ⟨-, -, -, misses, -⟩ := outcome [] rfl rfl
    exact ⟨_, misses rfl (cleanChild_report _) ⟨⟨"/r/built/a/module.js"⟩, by decide, by decide⟩⟩

end CleanRun

end PlatformBundle.Webpack
