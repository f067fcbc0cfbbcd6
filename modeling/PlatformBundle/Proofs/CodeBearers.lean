import PlatformBundle.Proofs.EntryArtifacts
import PlatformBundle.Proofs.FailStop
import PlatformBundle.Proofs.StagedManifests
import PlatformBundle.Proofs.StitchedFiles
/-!
Which artifacts hold code. An entry's does, and so does the placeholder's, with one exception: a
batch without an entry is not bundled, and where the platform has a global object nothing is put in
front of the shared chunk that is missing then.
-/

namespace PlatformBundle

/-- Bundling that succeeds leaves none of the chunks that it is to leave empty. -/
def Tools.FillsChunks (tools : Tools) : Prop :=
  ∀ (disk : Disk) (config : BundleConfig) (root : Path),
    (tools.bundle disk config root).result = .ok () →
    ∀ path ∈ config.expectedChunks, (tools.bundle disk config root).disk.readText path ≠ .ok ""

namespace Stitcher

variable {stitcher : Stitcher} {config : BundleConfig} {disk : Disk} {file : Classified}
  {artifact : Artifact} {chunk : String}

theorem declaration_ne_empty : stitcher.declaration ≠ "" := by
  intro empty
  have chars := congrArg String.toList empty
  simp [declaration] at chars

theorem sharedText_eq_empty_iff :
    stitcher.sharedText chunk = "" ↔ stitcher.capabilities.ambientGlobal = true ∧ chunk = "" := by
  unfold sharedText
  split
  · rename_i ambient
    simp [ambient]
  · rename_i bare
    simp [bare, declaration_ne_empty]

theorem entryText_ne_empty (filled : chunk ≠ "") : stitcher.entryText chunk ≠ "" := by
  unfold entryText
  split
  · exact filled
  · simp [filled]

theorem isEmpty_artifactOf (file : Classified) (data : String) :
    (artifactOf file data).isEmpty = false ↔ data ≠ "" := by
  rw [Artifact.isEmpty, artifactOf, ← Bool.not_eq_true, String.isEmpty_iff]

/-- A file whose artifact holds code, once no chunk of the batch is empty. -/
def Bears (stitcher : Stitcher) (config : BundleConfig) (file : Classified) : Prop :=
  file.kind = .entry ∨ file.kind = .sharedPlaceholder ∧
    (stitcher.capabilities.ambientGlobal = false ∨ config.entry.isEmpty = false)

theorem sharedChunk_eq_empty_iff
    (filled : config.entry.isEmpty = false → disk.readText config.sharedChunkPath ≠ .ok "")
    (read : (readShared config).onDisk disk = (.ok chunk, disk)) :
    chunk = "" ↔ config.entry.isEmpty = true := by
  rw [readShared_onDisk] at read
  have read := congrArg Prod.fst read
  split at read
  · rename_i bare
    cases read
    simp [bare]
  · rename_i entries
    have entries := Bool.eq_false_iff.mpr entries
    rw [onPath_eq_ok_iff] at read
    refine iff_of_false ?_ (by simp [entries])
    rintro rfl
    exact filled entries read

theorem Stitched.isEmpty_iff
    (filled : config.entry.isEmpty = false →
      ∀ path ∈ config.expectedChunks, disk.readText path ≠ .ok "")
    (registered : file.kind = .entry → config.entry.contains file.stagedPath = true)
    (stitched : Stitched stitcher config disk file artifact) :
    artifact.isEmpty = false ↔ stitcher.Bears config file := by
  unfold Stitched at stitched
  unfold Bears
  split at stitched
  · rename_i kind
    obtain ⟨chunk, read, rfl⟩ := stitched
    have shared :=
      sharedChunk_eq_empty_iff (fun entries => filled entries _ List.mem_cons_self) read
    rw [isEmpty_artifactOf, ne_eq, sharedText_eq_empty_iff, shared, kind, not_and_or,
      Bool.not_eq_true, Bool.not_eq_true]
    simp
  · rename_i kind
    obtain ⟨chunk, read, rfl⟩ := stitched
    have listed := registered kind
    have entries : config.entry.isEmpty = false := by
      obtain ⟨source, found⟩ := KeyMap.contains_iff.mp listed
      exact KeyMap.isEmpty_eq_false_iff.mpr ⟨_, source, found⟩
    have expected : config.entryChunkPath file.stagedPath ∈ config.expectedChunks :=
      List.mem_cons_of_mem _ (List.mem_map_of_mem (KeyMap.mem_keys_iff.mpr listed))
    rw [isEmpty_artifactOf]
    refine iff_of_true (entryText_ne_empty ?_) (Or.inl kind)
    rintro rfl
    exact filled entries _ expected read
  all_goals
    rename_i kind
    rw [stitched, isEmpty_artifactOf, kind]
    simp

end Stitcher

namespace Batch

section Ends

variable {settings : Settings} {registry : Registry} {tools : Tools} {platform : Platform}
  {files : List Classified} {reset : Bool} {disk left : Disk}

theorem StagingEnds.contains_iff {batch : StagedBatch}
    (ends : StagingEnds settings registry platform files reset disk (.ok batch) left)
    (key : String) : batch.config.entry.contains key = true ↔
      ∃ file ∈ files, file.kind = .entry ∧ file.stagedPath = key := by
  cases ends with
  | staged prepare stage =>
      obtain ⟨progress, sources, described, staging, -, -, same⟩ := Staging.stage_ok stage
      rw [same, Staging.stageFiles_ok_eq staging, KeyMap.contains_iff]
      constructor
      · rintro ⟨source, found⟩
        exact ((Staging.entry_get?_iff (by rfl) key source).mp found).2
      · intro entry
        exact ⟨_, (Staging.entry_get?_iff (by rfl) key _).mpr ⟨rfl, entry⟩⟩

theorem StagingEnds.isEmpty_iff {batch : StagedBatch}
    (ends : StagingEnds settings registry platform files reset disk (.ok batch) left) :
    batch.config.entry.isEmpty = false ↔ ∃ file ∈ files, file.kind = .entry := by
  rw [KeyMap.isEmpty_eq_false_iff]
  constructor
  · rintro ⟨key, source, found⟩
    obtain ⟨file, member, entry, -⟩ :=
      (ends.contains_iff key).mp (KeyMap.contains_iff.mpr ⟨source, found⟩)
    exact ⟨file, member, entry⟩
  · rintro ⟨file, member, entry⟩
    obtain ⟨source, found⟩ :=
      KeyMap.contains_iff.mp ((ends.contains_iff _).mpr ⟨file, member, entry, rfl⟩)
    exact ⟨_, source, found⟩

-- What is stitched has the entries of what was staged, whether it was bundled or not.
theorem bearers_of_stitch {batch : StagedBatch} {sources bundles ended : Disk}
    {config : BundleConfig} {artifacts : List Artifact}
    (staging : StagingEnds settings registry platform files reset disk (.ok batch) sources)
    (same : config.entry = batch.config.entry)
    (filled : config.entry.isEmpty = false →
      ∀ path ∈ config.expectedChunks, bundles.readText path ≠ .ok "")
    (stitch : ((Stitcher.ofSettings settings (settings.capabilities platform)).stitch config
      files).onDisk bundles = (.ok artifacts, ended)) :
    List.Forall₂ (fun file artifact => artifact.isEmpty = false ↔ file.kind = .entry ∨
      file.kind = .sharedPlaceholder ∧ ((settings.capabilities platform).ambientGlobal = false ∨
        ∃ other ∈ files, other.kind = .entry)) files artifacts := by
  have registered : ∀ file ∈ files, file.kind = .entry →
      config.entry.contains file.stagedPath = true := by
    intro file member entry
    rw [same]
    exact (staging.contains_iff _).mpr ⟨file, member, entry, rfl⟩
  have both := (List.forall₂_and_left _ _).mpr ⟨registered, (Stitcher.stitch_ok stitch).1⟩
  refine both.imp ?_
  rintro file artifact ⟨listed, stitched⟩
  rw [stitched.isEmpty_iff filled listed, Stitcher.Bears, same, staging.isEmpty_iff]
  rfl

theorem Ends.bearers {result : Except BuildError (List Artifact)} {made : List Call}
    {artifacts : List Artifact} (fills : tools.FillsChunks) (succeeded : result = .ok artifacts)
    (ends : Ends settings registry tools platform files reset disk result left made) :
    List.Forall₂ (fun file artifact => artifact.isEmpty = false ↔ file.kind = .entry ∨
      file.kind = .sharedPlaceholder ∧ ((settings.capabilities platform).ambientGlobal = false ∨
        ∃ other ∈ files, other.kind = .entry)) files artifacts := by
  obtain ⟨batch, sources, config, bundles, staging, ⟨none, rfl, rfl⟩ | bundling, stitch⟩ :=
    ends.of_ok succeeded
  · refine bearers_of_stitch staging rfl ?_ stitch
    intro entries
    rw [none] at entries
    cases entries
  · cases bundling with
    | bundled install closure finalize bundle =>
        exact bearers_of_stitch staging (finalized_ok finalize).1.1
          (fun _ => fills _ _ _ bundle) stitch

end Ends

/-- A file whose artifact holds code: an entry, or the placeholder where the platform has no global
object or some file of the batch is an entry. -/
def BearsCode (settings : Settings) (files : List InputFile) (file : InputFile) : Prop :=
  kindOf settings file = .entry ∨ kindOf settings file = .sharedPlaceholder ∧
    ((settings.capabilities file.platform).ambientGlobal = false ∨
      ∃ other ∈ files, kindOf settings other = .entry)

/-- The artifacts that hold code are those of the files that bear it, one by one. -/
theorem process_code_bearers {settings : Settings} {registry : Registry} {tools : Tools}
    {files : List InputFile} {artifacts : List Artifact} {world left : World}
    (fills : tools.FillsChunks)
    (processed : WorldTask.inWorld (process settings registry files) tools world =
      (.ok artifacts, left)) :
    List.Forall₂ (fun file artifact => artifact.isEmpty = false ↔ BearsCode settings files file)
      files artifacts := by
  have fit : ¬ Unfit files := by
    intro unfit
    obtain ⟨cause, refused⟩ := commonPlatform_of_unfit unfit
    rw [process, refused] at processed
    cases processed
  obtain ⟨platform, common, -, alike⟩ := commonPlatform_of_fit fit
  have ends := process_ends settings registry tools platform common world
  have bearers := List.forall₂_map_left_iff.mp (ends.bearers fills (congrArg Prod.fst processed))
  have both := (List.forall₂_and_left _ _).mpr ⟨alike, bearers⟩
  refine both.imp ?_
  rintro file artifact ⟨same, bears⟩
  have entries : (∃ other ∈ files.map (classify settings), other.kind = .entry) ↔
      ∃ other ∈ files, kindOf settings other = .entry := by
    simp [classify]
  rw [bears, BearsCode, same, entries]
  rfl

end Batch

namespace Rehearsal

section Filling

variable (plan : BundlerPlan)

def isFilled : Except IoCause String → Bool
  | .ok chunk => !chunk.isEmpty
  | .error _ => false

def fillingTools : Tools where
  install := fun disk _ => ⟨.ok (), disk, []⟩
  bundle := fun disk config root =>
    let run := Rehearsal.bundle plan disk config root
    if config.expectedChunks.all (fun path => isFilled (run.disk.readText path)) then run
    else { run with result := .error (.general "a chunk is empty") }

theorem fillingTools_fillsChunks : (fillingTools plan).FillsChunks := by
  intro disk config root succeeded path expected empty
  unfold fillingTools at succeeded empty
  dsimp only at succeeded empty
  split at succeeded
  · rename_i filled
    rw [if_pos filled] at empty
    have own := List.all_eq_true.mp filled path expected
    rw [empty] at own
    cases own
  · cases succeeded

end Filling

end Rehearsal

namespace Batch

section Samples

open Rehearsal

def browserPlaceholder : InputFile :=
  .ofSource Settings.defaultOwnPackage "shared-modules.js" "" browser

def appScript : InputFile := .ofSource .application "util.js" "u()" browser

/-- An entry and the placeholder hold code, a script beside them does not. -/
theorem entry_and_placeholder_hold_code : ∃ artifacts left,
    WorldTask.inWorld (process plainSettings .empty [appScript, browserPlaceholder, appModule])
      (fillingTools wrapping) emptyWorld = (.ok artifacts, left) ∧
    artifacts.map Artifact.isEmpty = [true, false, false] := by
  have succeeds : (WorldTask.inWorld (process plainSettings .empty
      [appScript, browserPlaceholder, appModule]) (fillingTools wrapping) emptyWorld).1.isOk =
        true := by
    decide +kernel
  rcases ended : WorldTask.inWorld (process plainSettings .empty
      [appScript, browserPlaceholder, appModule]) (fillingTools wrapping) emptyWorld with
    ⟨fault | artifacts, left⟩
  · rw [ended] at succeeds
    cases succeeds
  · have bearers := process_code_bearers (fillingTools_fillsChunks wrapping) ended
    rcases bearers with _ | ⟨script, _ | ⟨placeholder, _ | ⟨entry, _ | _⟩⟩⟩
    refine ⟨_, left, rfl, ?_⟩
    have some_entry : ∃ other ∈ [appScript, browserPlaceholder, appModule],
        kindOf plainSettings other = .entry := ⟨appModule, by simp, by decide⟩
    have scriptEmpty : ¬ BearsCode plainSettings [appScript, browserPlaceholder, appModule]
        appScript := by
      rintro (wrong | ⟨wrong, -⟩)
      · revert wrong
        decide
      · revert wrong
        decide
    rw [← script, Bool.not_eq_false] at scriptEmpty
    have placed := placeholder.mpr (Or.inr ⟨by decide, Or.inr some_entry⟩)
    have bundled := entry.mpr (Or.inl (by decide))
    simp only [List.map_cons, List.map_nil, scriptEmpty, placed, bundled]

-- Nothing is bundled for a placeholder alone, and a browser shows its empty chunk as it is.
theorem lone_placeholder_holds_no_code :
    (fillingTools wrapping).FillsChunks ∧
    kindOf plainSettings browserPlaceholder = .sharedPlaceholder ∧
    ∃ artifacts left,
      WorldTask.inWorld (process plainSettings .empty [browserPlaceholder])
        (fillingTools wrapping) emptyWorld = (.ok artifacts, left) ∧
      ∃ artifact : Artifact, artifacts[0]? = some artifact ∧ artifact.isEmpty = true := by
  refine ⟨fillingTools_fillsChunks wrapping, by decide, ?_⟩
  have bare : ((WorldTask.inWorld (process plainSettings .empty [browserPlaceholder])
      (fillingTools wrapping) emptyWorld).1.toOption.bind (fun artifacts => artifacts[0]?)).any
      Artifact.isEmpty = true := by
    decide +kernel
  generalize WorldTask.inWorld (process plainSettings .empty [browserPlaceholder])
    (fillingTools wrapping) emptyWorld = ended at bare ⊢
  obtain ⟨fault | artifacts, left⟩ := ended
  · cases bare
  · obtain ⟨artifact, here, empty⟩ := (Option.any_eq_true _ _).mp bare
    exact ⟨artifacts, left, rfl, artifact, here, empty⟩

end Samples

end Batch

end PlatformBundle
