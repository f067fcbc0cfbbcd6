import PlatformBundle.Batch
import PlatformBundle.Proofs.StageSteps
/-!
From the staged sources to the bundle. The checks between the two tools only read, and the
description that the bundling tool gets has the entries of the batch, each with its source.
-/

namespace PlatformBundle

def DiskCall.IsReading (call : DiskCall) : Prop := ∀ disk, (call.answer disk).2 = disk

theorem DiskTask.onDisk_of_reading {α : Type} {task : DiskTask α}
    (reading : task.Within DiskCall.IsReading) (disk : Disk) : (task.onDisk disk).2 = disk := by
  induction task generalizing disk with
  | done value => rfl
  | call request next ih =>
      have later := ih (request.answer disk).1 (reading.2 _) (request.answer disk).2
      exact later.trans (reading.1 disk)

theorem FileWork.onDisk_of_reading {α : Type} {work : FileWork α}
    (reading : work.run.Within DiskCall.IsReading) (disk : Disk) : (work.onDisk disk).2 = disk :=
  DiskTask.onDisk_of_reading reading disk

namespace Closure

theorem isReading_anyDirectory (paths : List Path) :
    (anyDirectory paths).Within DiskCall.IsReading := by
  induction paths with
  | nil => trivial
  | cons path rest ih =>
      refine ⟨fun _ => rfl, ?_⟩
      intro found
      change Task.Within _ (if found = true then pure true else anyDirectory rest)
      split
      · trivial
      · exact ih

theorem isReading_missingLinks (root : Path) (links : List Link) :
    (missingLinks root links).Within DiskCall.IsReading := by
  induction links with
  | nil => trivial
  | cons link rest ih =>
      refine Task.within_bind (isReading_anyDirectory _) ?_
      intro found
      exact Task.within_bind ih (fun _ => trivial)

theorem isReading_verify (root : Path) (packages : KeyMap PackageManifest) :
    (verify root packages).run.Within DiskCall.IsReading := by
  refine Task.within_except_bind
    (Task.within_bind (isReading_missingLinks root _) (fun _ => trivial)) ?_
  intro missing
  cases missing with
  | nil => trivial
  | cons link rest => trivial

theorem verify_leaves {root : Path} {packages : KeyMap PackageManifest} {disk left : Disk}
    {result : Except Fault Unit} (verified : (verify root packages).onDisk disk = (result, left)) :
    left = disk := by
  have same := FileWork.onDisk_of_reading (isReading_verify root packages) disk
  rwa [verified] at same

end Closure

theorem Files.isReading_hasEntries (path : Path) :
    (hasEntries path).run.Within DiskCall.IsReading := by
  refine ⟨fun _ => rfl, ?_⟩
  rintro (cause | names)
  · cases cause <;> trivial
  · trivial

theorem Files.hasEntries_leaves (path : Path) (disk : Disk) :
    ((hasEntries path).onDisk disk).2 = disk :=
  FileWork.onDisk_of_reading (isReading_hasEntries path) disk

theorem Files.isReading_readText (path : Path) :
    (readText path).run.Within DiskCall.IsReading := by
  refine ⟨fun _ => rfl, ?_⟩
  rintro (cause | text) <;> trivial

namespace Stitcher

theorem isReading_readShared (config : BundleConfig) :
    (readShared config).run.Within DiskCall.IsReading := by
  unfold readShared
  split
  · trivial
  · exact Files.isReading_readText _

theorem isReading_stitchFrom (stitcher : Stitcher) (config : BundleConfig)
    (shared : Option String) (files : List Classified) :
    (stitcher.stitchFrom config shared files).run.Within DiskCall.IsReading := by
  induction files generalizing shared with
  | nil => trivial
  | cons file rest ih =>
      have ending (artifact : Artifact) (shared : Option String) : (ExceptT.run (do
          let others ← stitcher.stitchFrom config shared rest
          pure (artifact :: others))).Within DiskCall.IsReading :=
        Task.within_except_bind (ih shared) (fun _ => trivial)
      rw [stitchFrom]
      split
      · split
        · exact ending _ _
        · exact Task.within_except_bind (isReading_readShared config) (fun _ => ending _ _)
      · exact Task.within_except_bind (Files.isReading_readText _) (fun _ => ending _ _)
      all_goals exact ending _ _

end Stitcher

namespace BundleConfig

/-- The same entries, the same output directory and the same name for the shared chunk. -/
def SameChunks (first second : BundleConfig) : Prop :=
  first.entry = second.entry ∧ first.outputPath = second.outputPath ∧
    first.sharedChunk = second.sharedChunk

theorem addFallback_sameChunks (config : BundleConfig) (path : Path) :
    (config.addFallback path).SameChunks config := by
  unfold addFallback
  split
  · exact ⟨rfl, rfl, rfl⟩
  · exact ⟨rfl, rfl, rfl⟩

theorem finalize_onDisk (config : BundleConfig) (root : Path) (name : StagingName)
    (rest : List StagingName) (disk : Disk) :
    (config.finalize root (name :: rest)).onDisk disk =
      match ((Files.hasEntries (installedTree root name)).onDisk disk).1 with
      | .error fault => ((.error fault, config), disk)
      | .ok true => ((config.addFallback (installedTree root name)).finalize root rest).onDisk disk
      | .ok false => (config.finalize root rest).onDisk disk := by
  have leaves := Files.hasEntries_leaves (installedTree root name) disk
  unfold FileWork.onDisk at leaves ⊢
  refine (Task.run_bind DiskCall.answer _ _ disk).trans ?_
  unfold DiskTask.onDisk at leaves ⊢
  rw [leaves]
  rcases (Task.run DiskCall.answer (Files.hasEntries (installedTree root name)).run disk).1
    with fault | _ | _ <;> rfl

theorem isReading_finalize (config : BundleConfig) (root : Path) (names : List StagingName) :
    (config.finalize root names).Within DiskCall.IsReading := by
  induction names generalizing config with
  | nil => trivial
  | cons name rest ih =>
      refine Task.within_bind (Files.isReading_hasEntries _) ?_
      rintro (fault | _ | _)
      · trivial
      · exact ih config
      · exact ih _

theorem finalize_sameChunks (config : BundleConfig) (root : Path) (names : List StagingName)
    (disk : Disk) :
    ((config.finalize root names).onDisk disk).1.2.SameChunks config ∧
      ((config.finalize root names).onDisk disk).2 = disk := by
  induction names generalizing config with
  | nil => exact ⟨⟨rfl, rfl, rfl⟩, rfl⟩
  | cons name rest ih =>
      rw [finalize_onDisk]
      split
      · exact ⟨⟨rfl, rfl, rfl⟩, rfl⟩
      · obtain ⟨⟨entry, output, shared⟩, leaves⟩ :=
          ih (config.addFallback (installedTree root name))
        have added := config.addFallback_sameChunks (installedTree root name)
        exact ⟨⟨entry.trans added.1, output.trans added.2.1, shared.trans added.2.2⟩, leaves⟩
      · exact ih config

end BundleConfig

theorem Batch.finalized_ok {config complete : BundleConfig} {root : Path}
    {names : List StagingName} {disk left : Disk}
    (finished : (Batch.finalized config root names).onDisk disk = (.ok complete, left)) :
    complete.SameChunks config ∧ left = disk := by
  have runs : (Batch.finalized config root names).onDisk disk =
      (((config.finalize root names).onDisk disk).1.1.map
        (fun _ => ((config.finalize root names).onDisk disk).1.2),
        ((config.finalize root names).onDisk disk).2) := by
    have whole := Task.run_bind (World.answer WorldTask.idleTools)
      (config.finalize root names).inTask
      (fun outcome => .done (outcome.1.map (fun _ => outcome.2) : Except Fault BundleConfig))
      (World.onDisk disk)
    have inside := DiskTask.alone_inTask (config.finalize root names) disk
    unfold WorldTask.alone WorldTask.inWorld at inside
    unfold Work.onDisk WorldTask.alone WorldTask.inWorld
    rw [inside] at whole
    exact congrArg (fun ended => (ended.1, ended.2.disk)) whole
  obtain ⟨same, leaves⟩ := config.finalize_sameChunks root names disk
  rw [runs, Prod.mk.injEq] at finished
  obtain ⟨result, rfl⟩ := finished
  generalize ((config.finalize root names).onDisk disk).1 = outcome at result same
  rcases outcome with ⟨fault | value, other⟩
  · cases result
  · cases result
    exact ⟨same, leaves⟩

theorem Batch.checkOwnPackage_cases (settings : Settings) (registry : Registry) :
    checkOwnPackage settings registry = pure () ∨ ∃ record,
      checkOwnPackage settings registry = ExceptT.lift (WorldTask.ask (.note record)) := by
  unfold checkOwnPackage
  split
  · exact Or.inl rfl
  · split
    · exact Or.inl rfl
    · exact Or.inr ⟨_, rfl⟩

end PlatformBundle
