import PlatformBundle.Proofs.PlainWork
import PlatformBundle.Staging
/-!
Staging on a disk, step by step: which work it consists of, and what has been done when it ends
without a fault.
-/

namespace PlatformBundle

namespace Staging

section Preparing

variable (root : Path) (reset : Bool)

def clearing : Work Unit := do
  (Files.ensureDir root reset).inWork
  (Files.remakeDir (root / packagesDir)).inWork
  (Files.remakeDir (root / builtDir)).inWork

theorem prepare_eq : prepare root reset =
    if reset then Work.note .info ("Resetting staging root " ++ root.text) >>= fun _ =>
      clearing root reset
    else clearing root reset := rfl

theorem isPlain_clearing : (clearing root reset).IsPlain :=
  Work.isPlain_bind (Work.isPlain_inWork _) (fun _ =>
    Work.isPlain_bind (Work.isPlain_inWork _) (fun _ => Work.isPlain_inWork _))

theorem isPlain_prepare : (prepare root reset).IsPlain := by
  rw [prepare_eq]
  split
  · exact Work.isPlain_bind (Work.isPlain_note _ _) (fun _ => isPlain_clearing root reset)
  · exact isPlain_clearing root reset

theorem prepare_onDisk (disk : Disk) :
    (prepare root reset).onDisk disk = (clearing root reset).onDisk disk := by
  rw [prepare_eq]
  split
  · rw [Work.onDisk_bind disk (fun _ => isPlain_clearing root reset), Work.onDisk_note]
  · rfl

variable {root reset} {disk left : Disk}

theorem prepare_ok (prepared : (prepare root reset).onDisk disk = (.ok (), left)) :
    ∃ ensured cleared,
      (Files.ensureDir root reset).onDisk disk = (.ok (), ensured) ∧
      (Files.remakeDir (root / packagesDir)).onDisk ensured = (.ok (), cleared) ∧
      (Files.remakeDir (root / builtDir)).onDisk cleared = (.ok (), left) := by
  rw [prepare_onDisk] at prepared
  obtain ⟨_, ensured, ensure, rest⟩ := (Work.onDisk_bind_ok_iff disk (fun _ =>
    Work.isPlain_bind (Work.isPlain_inWork _) (fun _ => Work.isPlain_inWork _))).mp prepared
  obtain ⟨_, cleared, packages, built⟩ := (Work.onDisk_bind_ok_iff ensured (fun _ =>
    Work.isPlain_inWork _)).mp rest
  rw [Work.onDisk_inWork] at ensure packages built
  exact ⟨ensured, cleared, ensure, packages, built⟩

end Preparing

section StagingFiles

variable (settings : Settings) (registry : Registry) (root : Path)

theorem isPlain_meetUnsupported (policy : UnclassifiedPolicy) (file : Classified) :
    (meetUnsupported policy file).IsPlain := by
  unfold meetUnsupported
  split
  · exact Work.isPlain_pure ()
  · exact Work.isPlain_note _ _
  · exact Work.isPlain_throw _

def placing (progress : Progress) (file : Classified) : Work Progress :=
  let owners := progress.owners.insert file.stagingName.text file.package
  match file.kind with
  | .entry => do
      (Files.write (root / packagesDir / file.stagedPath) file.source).inWork
      pure ⟨owners, progress.config.addEntry file.stagedPath⟩
  | .unsupported => do
      meetUnsupported settings.unclassified file
      pure ⟨owners, progress.config⟩
  | .sharedPlaceholder | .script => pure ⟨owners, progress.config⟩

theorem stageFile_eq (progress : Progress) (file : Classified) :
    stageFile settings root progress file =
      (Files.makeDir (root / packagesDir / file.stagingName.text)).inWork >>= fun _ =>
        placing settings root progress file := rfl

theorem isPlain_placing (progress : Progress) (file : Classified) :
    (placing settings root progress file).IsPlain := by
  unfold placing
  dsimp only
  split
  · exact Work.isPlain_bind (Work.isPlain_inWork _) (fun _ => Work.isPlain_pure _)
  · exact Work.isPlain_bind (isPlain_meetUnsupported _ file) (fun _ => Work.isPlain_pure _)
  · exact Work.isPlain_pure _
  · exact Work.isPlain_pure _

theorem isPlain_stageFile (progress : Progress) (file : Classified) :
    (stageFile settings root progress file).IsPlain := by
  rw [stageFile_eq]
  exact Work.isPlain_bind (Work.isPlain_inWork _) (fun _ => isPlain_placing settings root _ file)

theorem isPlain_stageFiles (progress : Progress) (files : List Classified) :
    (stageFiles settings root progress files).IsPlain := by
  induction files generalizing progress with
  | nil => exact Work.isPlain_pure progress
  | cons file rest ih =>
      exact Work.isPlain_bind (isPlain_stageFile settings root progress file)
        (fun after => ih after)

theorem isPlain_stage (files : List Classified) (config : BundleConfig) :
    (stage settings registry root files config).IsPlain := by
  unfold stage
  refine Work.isPlain_bind (isPlain_stageFiles settings root _ files) (fun _ => ?_)
  refine Work.isPlain_bind (Work.isPlain_inWork _) (fun _ => ?_)
  exact Work.isPlain_bind (Work.isPlain_inWork _) (fun _ => Work.isPlain_pure _)

def Progress.withFile (progress : Progress) (file : Classified) : Progress where
  owners := progress.owners.insert file.stagingName.text file.package
  config :=
    if file.kind = .entry then progress.config.addEntry file.stagedPath else progress.config

theorem withFile_outputPath (file : Classified) (progress : Progress) :
    (progress.withFile file).config.outputPath = progress.config.outputPath := by
  unfold Progress.withFile
  dsimp only
  split <;> rfl

theorem withFile_sharedChunk (file : Classified) (progress : Progress) :
    (progress.withFile file).config.sharedChunk = progress.config.sharedChunk := by
  unfold Progress.withFile
  dsimp only
  split <;> rfl

theorem withFile_entry (file : Classified) (progress : Progress) (key : String) :
    (progress.withFile file).config.entry.get? key =
      if file.kind = .entry ∧ file.stagedPath = key then some (BundleConfig.entrySource key)
      else progress.config.entry.get? key := by
  unfold Progress.withFile
  by_cases entry : file.kind = .entry
  · by_cases own : file.stagedPath = key
    · simp [entry, BundleConfig.addEntry, own]
    · simp [entry, BundleConfig.addEntry, own]
  · simp [entry]

variable {settings registry root} {disk left : Disk} {progress after : Progress}

theorem meetUnsupported_ok {policy : UnclassifiedPolicy} {file : Classified}
    (met : (meetUnsupported policy file).onDisk disk = (.ok (), left)) : left = disk := by
  unfold meetUnsupported at met
  split at met
  · exact (Work.onDisk_pure_ok disk met).2
  · rw [Work.onDisk_note] at met
    cases met
    rfl
  · rw [Work.onDisk_throw] at met
    cases met

theorem placing_ok {file : Classified}
    (placed : (placing settings root progress file).onDisk disk = (.ok after, left)) :
    after = progress.withFile file ∧
      if file.kind = .entry then
        (Files.write (root / packagesDir / file.stagedPath) file.source).onDisk disk =
          (.ok (), left)
      else left = disk := by
  unfold placing at placed
  unfold Progress.withFile
  dsimp only at placed
  split at placed
  · rename_i kind
    obtain ⟨_, written, write, ends⟩ :=
      (Work.onDisk_bind_ok_iff disk (fun _ => Work.isPlain_pure _)).mp placed
    obtain ⟨rfl, rfl⟩ := Work.onDisk_pure_ok _ ends
    rw [Work.onDisk_inWork] at write
    simpa [kind] using write
  · rename_i kind
    obtain ⟨_, met, meet, ends⟩ :=
      (Work.onDisk_bind_ok_iff disk (fun _ => Work.isPlain_pure _)).mp placed
    obtain ⟨rfl, rfl⟩ := Work.onDisk_pure_ok _ ends
    simpa [kind] using meetUnsupported_ok meet
  · rename_i kind
    obtain ⟨rfl, rfl⟩ := Work.onDisk_pure_ok _ placed
    simp [kind]
  · rename_i kind
    obtain ⟨rfl, rfl⟩ := Work.onDisk_pure_ok _ placed
    simp [kind]

theorem stageFile_ok {file : Classified}
    (staged : (stageFile settings root progress file).onDisk disk = (.ok after, left)) :
    after = progress.withFile file ∧ ∃ made,
      (Files.makeDir (root / packagesDir / file.stagingName.text)).onDisk disk = (.ok (), made) ∧
      if file.kind = .entry then
        (Files.write (root / packagesDir / file.stagedPath) file.source).onDisk made =
          (.ok (), left)
      else left = made := by
  rw [stageFile_eq] at staged
  obtain ⟨_, made, make, placed⟩ := (Work.onDisk_bind_ok_iff disk (fun _ =>
    isPlain_placing settings root progress file)).mp staged
  rw [Work.onDisk_inWork] at make
  obtain ⟨same, written⟩ := placing_ok placed
  exact ⟨same, made, make, written⟩

theorem stageFiles_cons_ok {file : Classified} {rest : List Classified}
    (staged : (stageFiles settings root progress (file :: rest)).onDisk disk = (.ok after, left)) :
    ∃ middle, (stageFile settings root progress file).onDisk disk =
        (.ok (progress.withFile file), middle) ∧
      (stageFiles settings root (progress.withFile file) rest).onDisk middle =
        (.ok after, left) := by
  obtain ⟨next, middle, first, others⟩ := (Work.onDisk_bind_ok_iff disk (fun next =>
    isPlain_stageFiles settings root next rest)).mp staged
  obtain ⟨rfl, -⟩ := stageFile_ok first
  exact ⟨middle, first, others⟩

theorem stageFiles_ok_eq {files : List Classified}
    (staged : (stageFiles settings root progress files).onDisk disk = (.ok after, left)) :
    after = files.foldl Progress.withFile progress := by
  induction files generalizing progress disk with
  | nil => exact (Work.onDisk_pure_ok disk staged).1
  | cons file rest ih =>
      obtain ⟨middle, -, others⟩ := stageFiles_cons_ok staged
      exact ih others

variable (settings registry root) in
def Progress.batch (progress : Progress) : StagedBatch where
  root
  config := progress.config
  manifest := topManifest settings ((manifestsOf settings registry progress.owners).map Prod.fst)
  packages := KeyMap.ofList ((manifestsOf settings registry progress.owners).map
    (fun entry => (entry.1.text, entry.2)))
  stagingNames := progress.owners.mapValues (fun _ => ())

theorem stage_steps_iff {files : List Classified} {config : BundleConfig} {batch : StagedBatch} :
    (stage settings registry root files config).onDisk disk = (.ok batch, left) ↔
    ∃ progress sources described,
      (stageFiles settings root ⟨KeyMap.empty, config⟩ files).onDisk disk =
        (.ok progress, sources) ∧
      (writeManifests root (manifestsOf settings registry progress.owners)).onDisk sources =
        (.ok (), described) ∧
      (Files.write (root / manifestFile) (topManifest settings
        ((manifestsOf settings registry progress.owners).map Prod.fst)).fileText).onDisk described =
        (.ok (), left) ∧
      batch = progress.batch settings registry root := by
  rw [stage, Work.onDisk_bind_ok_iff disk (fun _ =>
    Work.isPlain_bind (Work.isPlain_inWork _) (fun _ =>
      Work.isPlain_bind (Work.isPlain_inWork _) (fun _ => Work.isPlain_pure _)))]
  constructor
  · rintro ⟨progress, sources, staging, rest⟩
    obtain ⟨_, described, manifests, rest⟩ := (Work.onDisk_bind_ok_iff sources (fun _ =>
      Work.isPlain_bind (Work.isPlain_inWork _) (fun _ => Work.isPlain_pure _))).mp rest
    obtain ⟨_, topped, top, ends⟩ := (Work.onDisk_bind_ok_iff described (fun _ =>
      Work.isPlain_pure _)).mp rest
    rw [Work.onDisk_inWork] at manifests top
    obtain ⟨rfl, rfl⟩ := Work.onDisk_pure_ok _ ends
    exact ⟨progress, sources, described, staging, manifests, top, rfl⟩
  · rintro ⟨progress, sources, described, staging, manifests, top, rfl⟩
    rw [← Work.onDisk_inWork] at manifests top
    refine ⟨progress, sources, staging, ?_⟩
    refine (Work.onDisk_bind_ok_iff sources (fun _ =>
      Work.isPlain_bind (Work.isPlain_inWork _) (fun _ => Work.isPlain_pure _))).mpr
      ⟨(), described, manifests, ?_⟩
    exact (Work.onDisk_bind_ok_iff described (fun _ => Work.isPlain_pure _)).mpr
      ⟨(), left, top, rfl⟩

theorem stage_ok {files : List Classified} {config : BundleConfig} {batch : StagedBatch}
    (staged : (stage settings registry root files config).onDisk disk = (.ok batch, left)) :
    ∃ progress sources described,
      (stageFiles settings root ⟨KeyMap.empty, config⟩ files).onDisk disk =
        (.ok progress, sources) ∧
      (writeManifests root (manifestsOf settings registry progress.owners)).onDisk sources =
        (.ok (), described) ∧
      (Files.write (root / manifestFile) (topManifest settings
        ((manifestsOf settings registry progress.owners).map Prod.fst)).fileText).onDisk described =
        (.ok (), left) ∧
      batch.config = progress.config := by
  obtain ⟨progress, sources, described, staging, manifests, top, rfl⟩ := stage_steps_iff.mp staged
  exact ⟨progress, sources, described, staging, manifests, top, rfl⟩

end StagingFiles

end Staging

end PlatformBundle
