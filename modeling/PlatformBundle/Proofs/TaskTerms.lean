import PlatformBundle.Proofs.BundleSteps
import PlatformBundle.Proofs.StagedManifests
/-!
The terms on which a task works: the calls that it may make, and the replies that it may get to
them. A task that keeps to its terms is put together from steps that do, and each step may count on
what the steps before it end with.
-/

namespace PlatformBundle

namespace Task

variable {Call Call' : Type} {Reply : Call → Type} {Reply' : Call' → Type} {α β ε : Type}

/-- The calls that a task may make, and the replies that it has to reckon with. -/
structure Terms (Reply : Call → Type) where
  asks : Call → Prop
  told : (request : Call) → Reply request → Prop

@[reducible] def Terms.anyReply (asks : Call → Prop) : Terms Reply := ⟨asks, fun _ _ => True⟩

variable {terms : Terms Reply}

/-- A task keeps to the terms, and every value that it may end with is a good one. -/
def Brings (terms : Terms Reply) (good : α → Prop) : Task Reply α → Prop
  | .done value => good value
  | .call request next =>
      terms.asks request ∧ ∀ reply, terms.told request reply → (next reply).Brings terms good

theorem brings_bind {task : Task Reply α} {follow : α → Task Reply β} {middle : α → Prop}
    {good : β → Prop} (first : task.Brings terms middle)
    (rest : ∀ value, middle value → (follow value).Brings terms good) :
    (task.bind follow).Brings terms good := by
  induction task with
  | done value => exact rest value first
  | call request next ih => exact ⟨first.1, fun reply told => ih reply (first.2 reply told)⟩

theorem brings_mono {task : Task Reply α} {good weaker : α → Prop} (brings : task.Brings terms good)
    (implies : ∀ value, good value → weaker value) : task.Brings terms weaker := by
  induction task with
  | done value => exact implies value brings
  | call request next ih => exact ⟨brings.1, fun reply told => ih reply (brings.2 reply told)⟩

theorem brings_lift {embed : Call → Call'} {wider : Terms Reply'}
    {reply : (request : Call) → Reply' (embed request) → Reply request} {task : Task Reply α}
    {good : α → Prop} (brings : task.Brings terms good)
    (asks : ∀ call, terms.asks call → wider.asks (embed call))
    (told : ∀ call answer, wider.told (embed call) answer → terms.told call (reply call answer)) :
    (task.lift embed reply).Brings wider good := by
  induction task with
  | done value => exact brings
  | call request next ih =>
      exact ⟨asks _ brings.1, fun answer given => ih _ (brings.2 _ (told _ answer given))⟩

theorem brings_within {asks : Call → Prop} {task : Task Reply α} {good : α → Prop}
    (brings : task.Brings (.anyReply asks) good) : task.Within asks := by
  induction task with
  | done value => trivial
  | call request next ih => exact ⟨brings.1, fun reply => ih reply (brings.2 reply trivial)⟩

/-- The same for steps that stop at a fault: a value is good if they come to one. -/
def Steps (terms : Terms Reply) (work : ExceptT ε (Task Reply) α) (good : α → Prop) : Prop :=
  work.run.Brings terms (fun result => ∀ value, result = .ok value → good value)

theorem steps_pure {value : α} {good : α → Prop} (here : good value) :
    Steps terms (pure value : ExceptT ε (Task Reply) α) good := by
  rintro _ ⟨⟩
  exact here

theorem steps_throw {fault : ε} {good : α → Prop} :
    Steps terms (throw fault : ExceptT ε (Task Reply) α) good := by
  rintro _ ⟨⟩

theorem steps_bind {first : ExceptT ε (Task Reply) α} {follow : α → ExceptT ε (Task Reply) β}
    {middle : α → Prop} {good : β → Prop} (begins : Steps terms first middle)
    (goes : ∀ value, middle value → Steps terms (follow value) good) :
    Steps terms (first >>= follow) good := by
  refine brings_bind begins (fun result ends => ?_)
  cases result with
  | ok value => exact goes value (ends value rfl)
  | error fault => rintro _ ⟨⟩

theorem steps_ask {call : Call} (here : terms.asks call) :
    Steps terms (ExceptT.lift (ask call) : ExceptT ε (Task Reply) (Reply call))
      (terms.told call) := by
  refine ⟨here, fun reply told => ?_⟩
  rintro _ ⟨⟩
  exact told

theorem steps_mono {work : ExceptT ε (Task Reply) α} {good weaker : α → Prop}
    (steps : Steps terms work good) (implies : ∀ value, good value → weaker value) :
    Steps terms work weaker :=
  brings_mono steps (fun _ ends value same => implies value (ends value same))

theorem brings_of_within {kind : Call → Prop} {task : Task Reply α} {good : α → Prop}
    (within : task.Within kind) (asks : ∀ call, kind call → terms.asks call)
    (ends : ∀ value, good value) : task.Brings terms good := by
  induction task with
  | done value => exact ends value
  | call request next ih =>
      exact ⟨asks request within.1, fun reply _ => ih reply (within.2 reply)⟩

end Task

@[reducible] def Task.Terms.onFiles (terms : Task.Terms Call.Reply) :
    Task.Terms DiskCall.Reply where
  asks call := terms.asks (.file call)
  told call := terms.told (.file call)

theorem FileWork.steps_inWork {α : Type} {terms : Task.Terms Call.Reply} {work : FileWork α}
    {good : α → Prop} (steps : Task.Steps terms.onFiles work good) :
    Task.Steps terms work.inWork good :=
  Task.brings_lift steps (fun _ asks => asks) (fun _ _ told => told)

namespace Staging

section Whole

variable {terms : Task.Terms Call.Reply} (notes : ∀ record, terms.asks (.note record))
include notes

theorem steps_prepare {root : Path} {reset : Bool} {good : Unit → Prop}
    (clears : Task.Steps terms (clearing root reset) good) :
    Task.Steps terms (prepare root reset) good := by
  rw [prepare_eq]
  split
  · exact Task.steps_bind (Task.steps_ask (notes _)) (fun _ _ => clears)
  · exact clears

variable {settings : Settings} {registry : Registry} {root : Path} {files : List Classified}

theorem steps_placing {progress : Progress} {file : Classified}
    (writes : file.kind = .entry → Task.Steps terms.onFiles
      (Files.write (root / packagesDir / file.stagedPath) file.source) (fun _ => True)) :
    Task.Steps terms (placing settings root progress file)
      (fun after => after = progress.withFile file) := by
  unfold placing Progress.withFile
  generalize root / packagesDir / file.stagedPath = path at writes ⊢
  cases kind : file.kind with
  | entry =>
      exact Task.steps_bind (FileWork.steps_inWork (writes kind))
        (fun _ _ => Task.steps_pure (by simp))
  | unsupported =>
      have meets : Task.Steps terms (meetUnsupported settings.unclassified file)
          (fun _ => True) := by
        unfold meetUnsupported
        split
        · exact Task.steps_pure trivial
        · exact Task.steps_mono (Task.steps_ask (notes _)) (fun _ _ => trivial)
        · exact Task.steps_throw
      exact Task.steps_bind meets (fun _ _ => Task.steps_pure (by simp))
  | sharedPlaceholder => exact Task.steps_pure (by simp)
  | script => exact Task.steps_pure (by simp)

variable
  (makes : ∀ file ∈ files, Task.Steps terms.onFiles
    (Files.makeDir (root / packagesDir / file.stagingName.text)) (fun _ => True))
  (writes : ∀ file ∈ files, file.kind = .entry → Task.Steps terms.onFiles
    (Files.write (root / packagesDir / file.stagedPath) file.source) (fun _ => True))
include makes writes

theorem steps_stageFiles {progress : Progress} :
    Task.Steps terms (stageFiles settings root progress files)
      (fun after => after = files.foldl Progress.withFile progress) := by
  induction files generalizing progress with
  | nil => exact Task.steps_pure rfl
  | cons file rest ih =>
      obtain ⟨make, makesLater⟩ := List.forall_mem_cons.mp makes
      obtain ⟨write, writesLater⟩ := List.forall_mem_cons.mp writes
      have first : Task.Steps terms (stageFile settings root progress file)
          (fun after => after = progress.withFile file) := by
        rw [stageFile_eq]
        exact Task.steps_bind (FileWork.steps_inWork make) (fun _ _ => steps_placing notes write)
      refine Task.steps_bind first (fun after same => ?_)
      rw [same]
      exact ih makesLater writesLater

/-- Staging keeps to terms on which it may write to the log, if what it does to the disk does: the
directories it makes, the sources and manifests it writes. -/
theorem steps_stage {config : BundleConfig}
    (describes : ∀ entry ∈ manifestsOf settings registry (ownersOf files),
      Task.Steps terms.onFiles (Files.write (root / packagesDir / entry.1.text / manifestFile)
        entry.2.fileText) (fun _ => True))
    (ends : ∀ text, Task.Steps terms.onFiles (Files.write (root / manifestFile) text)
      (fun _ => True)) :
    Task.Steps terms (stage settings registry root files config) (fun batch =>
      batch.packages = manifestsFor settings registry files ∧
        batch.stagingNames = (ownersOf files).mapValues (fun _ => ()) ∧
        batch.config = (files.foldl Progress.withFile ⟨KeyMap.empty, config⟩).config) := by
  have manifests : Task.Steps terms.onFiles
      (writeManifests root (manifestsOf settings registry (ownersOf files))) (fun _ => True) := by
    generalize manifestsOf settings registry (ownersOf files) = entries at describes
    induction entries with
    | nil => exact Task.steps_pure trivial
    | cons entry rest ih =>
        obtain ⟨name, manifest⟩ := entry
        simp only [List.forall_mem_cons] at describes
        rw [writeManifests]
        -- A path that is spelled out would be evaluated by each of the next steps.
        generalize root / packagesDir / name.text / manifestFile = path at describes ⊢
        exact Task.steps_bind describes.1 (fun _ _ => ih describes.2)
  have sources : Task.Steps terms (stageFiles settings root ⟨KeyMap.empty, config⟩ files)
      (fun after => after = files.foldl Progress.withFile ⟨KeyMap.empty, config⟩) :=
    steps_stageFiles notes makes writes
  unfold stage
  generalize root / manifestFile = top at ends
  refine Task.steps_bind sources ?_
  rintro _ rfl
  rw [owners_withFiles]
  refine Task.steps_bind (FileWork.steps_inWork manifests) (fun _ _ => ?_)
  exact Task.steps_bind (FileWork.steps_inWork (ends _))
    (fun _ _ => Task.steps_pure ⟨rfl, rfl, rfl⟩)

end Whole

end Staging

namespace Batch

variable {terms : Task.Terms Call.Reply} {platform : Platform}

theorem steps_inStage {α : Type} {stage : Stage} {work : Work α} {good : α → Prop}
    (steps : Task.Steps terms work good) :
    Task.Steps terms (inStage stage platform work) good := by
  refine Task.brings_bind steps (fun result ends => ?_)
  cases result with
  | error fault => rintro _ ⟨⟩
  | ok value =>
      rintro _ ⟨⟩
      exact ends value rfl

theorem steps_checkOwnPackage {settings : Settings} {registry : Registry}
    (notes : ∀ record, terms.asks (.note record)) :
    Task.Steps terms (checkOwnPackage settings registry) (fun _ => True) := by
  rcases checkOwnPackage_cases settings registry with silent | ⟨record, noted⟩
  · rw [silent]
    exact Task.steps_pure trivial
  · rw [noted]
    exact Task.steps_mono (Task.steps_ask (notes _)) (fun _ _ => trivial)

theorem steps_reading {α : Type} {stage : Stage} {work : FileWork α}
    (reads : ∀ call : DiskCall, call.IsReading → terms.asks (.file call))
    (reading : work.run.Within DiskCall.IsReading) :
    Task.Steps terms (inStage stage platform work.inWork) (fun _ => True) := by
  have within : work.inWork.run.Within terms.asks := Task.within_lift reading reads
  exact steps_inStage (Task.brings_of_within within (fun _ asks => asks) (fun _ _ _ => trivial))

section Whole

variable {settings : Settings} {registry : Registry} {files : List InputFile}
  (notes : ∀ record, terms.asks (.note record))
  (reads : ∀ call : DiskCall, call.IsReading → terms.asks (.file call))
include notes

theorem steps_note (message : String) : Task.Steps terms (note message) (fun _ => True) :=
  Task.steps_mono (Task.steps_ask (notes _)) (fun _ _ => trivial)

include reads

theorem steps_bundleAll {root : Path} (staged : StagedBatch)
    (installs : terms.asks (.install root)) (bundles : ∀ config, terms.asks (.bundle config root)) :
    Task.Steps terms (bundleAll platform root staged) (fun _ => True) := by
  have finalizes : Task.Steps terms (finalized staged.config root
      (staged.stagingNames.keys.map StagingName.mk)) (fun _ => True) := by
    have within : (staged.config.finalize root
        (staged.stagingNames.keys.map StagingName.mk)).inTask.Within terms.asks :=
      Task.within_lift (BundleConfig.isReading_finalize _ _ _) reads
    exact Task.brings_of_within (Task.within_bind within (fun _ => trivial)) (fun _ asks => asks)
      (fun _ _ _ => trivial)
  refine Task.steps_bind (steps_note notes _) (fun _ _ => ?_)
  refine Task.steps_bind (steps_inStage ⟨installs, fun _ _ _ _ => trivial⟩) (fun _ _ => ?_)
  refine Task.steps_bind (steps_reading reads (Closure.isReading_verify _ _)) (fun _ _ => ?_)
  refine Task.steps_bind (steps_inStage finalizes) (fun config _ => ?_)
  refine Task.steps_bind (steps_note notes _) (fun _ _ => ?_)
  exact Task.steps_bind (steps_inStage ⟨bundles config, fun _ _ _ _ => trivial⟩)
    (fun _ _ => Task.steps_pure trivial)

/-- A batch keeps to terms on which it may write to the log, read and call the tools, if it keeps to
them while it prepares and stages. -/
theorem steps_of_staging (begins : terms.asks (.beginPass platform))
    (prepares : ∀ first, terms.told (.beginPass platform) first →
      Task.Steps terms (Staging.prepare (settings.stagingRoot platform)
        (first && settings.resetOnFirstRun)) (fun _ => True))
    (stages : ∀ config, Task.Steps terms (Staging.stage settings registry
      (settings.stagingRoot platform) (files.map (classify settings)) config) (fun _ => True))
    (installs : terms.asks (.install (settings.stagingRoot platform)))
    (bundles : ∀ config, terms.asks (.bundle config (settings.stagingRoot platform))) :
    Task.Steps terms (processFor settings registry platform files) (fun _ => True) := by
  have staging : Task.Steps terms (stageAll settings registry platform
      (files.map (classify settings))) (fun _ => True) := by
    refine Task.steps_bind (Task.steps_ask begins) (fun first told => ?_)
    exact Task.steps_bind (steps_inStage (prepares first told))
      (fun _ _ => steps_inStage (stages _))
  have stitching (config : BundleConfig) : Task.Steps terms (do
      let artifacts ← inStage .stitching platform ((Stitcher.ofSettings settings
        (settings.capabilities platform)).stitch config (files.map (classify settings))).inWork
      note (producedText platform artifacts)
      pure artifacts) (fun _ => True) := by
    refine Task.steps_bind (steps_reading reads (Stitcher.isReading_stitchFrom _ _ _ _))
      (fun _ _ => ?_)
    exact Task.steps_bind (steps_note notes _) (fun _ _ => Task.steps_pure trivial)
  refine Task.steps_bind (steps_note notes _) (fun _ _ => ?_)
  refine Task.steps_bind (steps_checkOwnPackage notes) (fun _ _ => ?_)
  refine Task.steps_bind staging (fun staged _ => ?_)
  refine Task.steps_bind (steps_note notes _) (fun _ _ => ?_)
  dsimp only
  split
  · exact Task.steps_bind (steps_note notes _) (fun _ _ => stitching staged.config)
  · exact Task.steps_bind (steps_bundleAll notes reads staged installs bundles)
      (fun config _ => stitching config)

end Whole

end Batch

end PlatformBundle
