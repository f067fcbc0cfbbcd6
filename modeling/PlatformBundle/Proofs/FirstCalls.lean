import PlatformBundle.Batch
import PlatformBundle.Proofs.StageSteps
import PlatformBundle.Proofs.TaskTerms
/-!
How a batch begins. Before its staging root is there it asks the disk only to clear the root and to
make it, and it ends when the root cannot be made.
-/

namespace PlatformBundle

open Staging

namespace Disk

def failing (root : Path) (clears : Bool) : Task.Terms DiskCall.Reply where
  asks
    | .removeTree path => clears = true ∧ path = root
    | .createDirs path => path = root
    | _ => False
  told
    | .removeTree _, reply => ∃ cause, reply = .error cause
    | .createDirs _, reply => ∃ cause, reply = .error cause
    | _, _ => True

variable {root : Path} {clears : Bool}

theorem failing_makeDir :
    Task.Steps (failing root clears) (Files.makeDir root) (fun _ => False) := by
  refine Task.steps_bind (Task.steps_ask rfl) (fun reply failed => ?_)
  obtain ⟨cause, rfl⟩ := failed
  rintro _ ⟨⟩

theorem failing_ensureDir {reset : Bool} (allowed : reset = true → clears = true) :
    Task.Steps (failing root clears) (Files.ensureDir root reset) (fun _ => False) := by
  cases reset with
  | false => exact failing_makeDir
  | true =>
      have removes : Task.Steps (failing root clears) (Files.removeDir root) (fun _ => True) := by
        refine Task.steps_bind (Task.steps_ask ⟨allowed rfl, rfl⟩) (fun reply failed => ?_)
        obtain ⟨cause, rfl⟩ := failed
        cases cause
        case notFound => exact Task.steps_pure trivial
        all_goals exact fun _ _ => trivial
      exact Task.steps_bind removes (fun _ _ => failing_makeDir)

end Disk

namespace Batch

variable {settings : Settings} {registry : Registry} {platform : Platform}
  {files : List InputFile}

/-- The calls with which the batch of a platform begins, as long as its root cannot be made. -/
def opening (settings : Settings) (platform : Platform) : Task.Terms Call.Reply where
  asks
    | .file call =>
        (Disk.failing (settings.stagingRoot platform) settings.resetOnFirstRun).asks call
    | .note _ => True
    | .beginPass other => other = platform
    | _ => False
  told
    | .file call, reply =>
        (Disk.failing (settings.stagingRoot platform) settings.resetOnFirstRun).told call reply
    | _, _ => True

theorem opening_prepare {reset : Bool} (allowed : reset = true → settings.resetOnFirstRun = true) :
    Task.Steps (opening settings platform) (prepare (settings.stagingRoot platform) reset)
      (fun _ => False) := by
  have clears : Task.Steps (opening settings platform)
      (clearing (settings.stagingRoot platform) reset) (fun _ => False) := by
    have ensures : Task.Steps (opening settings platform)
        (Files.ensureDir (settings.stagingRoot platform) reset).inWork (fun _ => False) :=
      Task.brings_lift (Disk.failing_ensureDir allowed) (fun _ asks => asks) (fun _ _ told => told)
    exact Task.steps_bind ensures (fun _ impossible => impossible.elim)
  exact steps_prepare (fun _ => trivial) clears

/-- A batch begins with such calls, and as long as its root cannot be made it makes no others. -/
theorem opening_processFor :
    Task.Steps (opening settings platform) (processFor settings registry platform files)
      (fun _ => True) := by
  have stages : Task.Steps (opening settings platform)
      (stageAll settings registry platform (files.map (classify settings))) (fun _ => False) := by
    refine Task.steps_bind (Task.steps_ask rfl) (fun first _ => ?_)
    refine Task.steps_bind (steps_inStage (opening_prepare ?_))
      (fun _ impossible => impossible.elim)
    intro resets
    exact (Bool.and_eq_true_iff.mp resets).2
  unfold processFor
  dsimp only
  refine Task.steps_bind (Task.steps_ask trivial) (fun _ _ => ?_)
  refine Task.steps_bind (steps_checkOwnPackage (fun _ => trivial)) (fun _ _ => ?_)
  exact Task.steps_bind stages (fun _ impossible => impossible.elim)

end Batch

end PlatformBundle
