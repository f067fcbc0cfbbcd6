import PlatformBundle.Proofs.BatchEnds
import PlatformBundle.Proofs.StitchedFiles
/-!
A batch stops at its first fault. What the tools do and what stands on the disk is left open: a
batch gives one artifact for each file or the error of one stage, calls each tool at most once, and
calls the bundling tool only on what was installed, checked and described without a fault.
-/

namespace PlatformBundle.Batch

open WorldTask (toolCalls)

def batchTag : List InputFile → String
  | [] => "<none>"
  | first :: _ => first.platform.tag

/-- The batch is empty, or two of its files are for different platforms. -/
def Unfit (files : List InputFile) : Prop :=
  files = [] ∨ ∃ one ∈ files, ∃ other ∈ files, one.platform ≠ other.platform

theorem commonPlatform_of_unfit {files : List InputFile} (unfit : Unfit files) :
    ∃ cause, commonPlatform files = .error (.inStage .staging (batchTag files) cause) := by
  cases files with
  | nil => exact ⟨_, rfl⟩
  | cons first rest =>
      rw [commonPlatform]
      split
      · exact ⟨_, rfl⟩
      · rename_i alike
        have same : ∀ file ∈ first :: rest, file.platform = first.platform := by
          intro file member
          rcases List.mem_cons.mp member with rfl | later
          · rfl
          · simpa using List.find?_eq_none.mp alike file later
        rcases unfit with empty | ⟨one, here, other, there, differ⟩
        · cases empty
        · exact absurd ((same one here).trans (same other there).symm) differ

theorem commonPlatform_of_fit {files : List InputFile} (fit : ¬ Unfit files) :
    ∃ platform, commonPlatform files = .ok platform ∧ platform.tag = batchTag files ∧
      ∀ file ∈ files, file.platform = platform := by
  cases files with
  | nil => exact absurd (Or.inl rfl) fit
  | cons first rest =>
      have same : ∀ file ∈ first :: rest, file.platform = first.platform := by
        intro file member
        by_contra differ
        exact fit (Or.inr ⟨file, member, first, List.mem_cons_self, differ⟩)
      exact ⟨first.platform, commonPlatform_of_alike (List.cons_ne_nil first rest) same, rfl, same⟩

section Ends

variable {settings : Settings} {registry : Registry} {tools : Tools} {platform : Platform}
  {files : List Classified} {reset : Bool} {disk left : Disk}

theorem StagingEnds.error_inStage {error : BuildError}
    (ends : StagingEnds settings registry platform files reset disk (.error error) left) :
    ∃ cause, error = .inStage .staging platform.tag cause := by
  cases ends with
  | preparing prepare => exact ⟨_, rfl⟩
  | staging prepare stage => exact ⟨_, rfl⟩

-- Only an entry adds to the description of the bundle.
theorem entry_isEmpty_of_no_entry {root : Path} {config : BundleConfig} {batch : StagedBatch}
    (none : ∀ file ∈ files, file.kind ≠ .entry)
    (staged : (Staging.stage settings registry root files config).onDisk disk = (.ok batch, left)) :
    batch.config = config := by
  obtain ⟨progress, sources, described, staged, -, -, same⟩ := Staging.stage_ok staged
  have folded : ∀ (files : List Classified) (progress : Staging.Progress),
      (∀ file ∈ files, file.kind ≠ .entry) →
      (files.foldl Staging.Progress.withFile progress).config = progress.config := by
    intro files
    induction files with
    | nil => intro progress _; rfl
    | cons file rest ih =>
        intro progress none
        rw [List.foldl_cons, ih _ (fun file later => none file (List.mem_cons_of_mem _ later))]
        exact if_neg (none file List.mem_cons_self)
  rw [same, Staging.stageFiles_ok_eq staged, folded files _ none]

/-- How far the tools have been called, and what has succeeded before. -/
inductive CallsMade (settings : Settings) (registry : Registry) (tools : Tools)
    (platform : Platform) (files : List Classified) (reset : Bool) (disk : Disk) :
    List Call → Prop where
  | none : CallsMade settings registry tools platform files reset disk []
  | installOnly {batch : StagedBatch} {sources : Disk}
      (staging : StagingEnds settings registry platform files reset disk (.ok batch) sources) :
      CallsMade settings registry tools platform files reset disk
        [.install (settings.stagingRoot platform)]
  | both {batch : StagedBatch} {sources checked complete : Disk} {config : BundleConfig}
      (staging : StagingEnds settings registry platform files reset disk (.ok batch) sources)
      (install : (tools.install sources (settings.stagingRoot platform)).result = .ok ())
      (closure : (Closure.verify (settings.stagingRoot platform) batch.packages).onDisk
        (tools.install sources (settings.stagingRoot platform)).disk = (.ok (), checked))
      (finalize : (finalized batch.config (settings.stagingRoot platform)
        (batch.stagingNames.keys.map StagingName.mk)).onDisk checked = (.ok config, complete)) :
      CallsMade settings registry tools platform files reset disk
        [.install (settings.stagingRoot platform), .bundle config (settings.stagingRoot platform)]

variable {result : Except BuildError (List Artifact)} {made : List Call}

theorem Ends.callsMade
    (ends : Ends settings registry tools platform files reset disk result left made) :
    CallsMade settings registry tools platform files reset disk made := by
  cases ends with
  | unstaged staging => exact .none
  | skipped staging none stitch => exact .none
  | unbundled staging entries bundling =>
      cases bundling with
      | installing install => exact .installOnly staging
      | checking install closure => exact .installOnly staging
      | finalizing install closure finalize => exact .installOnly staging
      | bundling install closure finalize bundle => exact .both staging install closure finalize
  | stitched staging entries bundling stitch =>
      cases bundling with
      | bundled install closure finalize bundle => exact .both staging install closure finalize

theorem Ends.noCalls (none : ∀ file ∈ files, file.kind ≠ .entry)
    (ends : Ends settings registry tools platform files reset disk result left made) :
    made = [] := by
  have empty : ∀ {batch : StagedBatch} {sources : Disk},
      StagingEnds settings registry platform files reset disk (.ok batch) sources →
      batch.config.entry.isEmpty = true := by
    intro batch sources staging
    cases staging with
    | staged prepare stage =>
        rw [entry_isEmpty_of_no_entry none stage]
        rfl
  cases ends with
  | unstaged staging => rfl
  | skipped staging none stitch => rfl
  | unbundled staging entries bundling =>
      rw [empty staging] at entries
      cases entries
  | stitched staging entries bundling stitch =>
      rw [empty staging] at entries
      cases entries

/-- The result is an artifact for each file, or the error of a stage. -/
def Settled (tag : String) (count : Nat) (result : Except BuildError (List Artifact)) : Prop :=
  (∃ artifacts, result = .ok artifacts ∧ artifacts.length = count) ∨
    ∃ stage cause, result = .error (.inStage stage tag cause)

theorem settled_of_stitch {stitcher : Stitcher} {config : BundleConfig}
    {stitched : Except Fault (List Artifact)}
    (stitch : (stitcher.stitch config files).onDisk disk = (stitched, left)) :
    Settled platform.tag files.length
      (stitched.mapError (.inStage .stitching platform.tag)) := by
  cases stitched with
  | error fault => exact Or.inr ⟨_, _, rfl⟩
  | ok artifacts => exact Or.inl ⟨artifacts, rfl, (Stitcher.stitch_ok stitch).1.length_eq.symm⟩

theorem Ends.settled
    (ends : Ends settings registry tools platform files reset disk result left made) :
    Settled platform.tag files.length result := by
  cases ends with
  | unstaged staging =>
      obtain ⟨cause, rfl⟩ := staging.error_inStage
      exact Or.inr ⟨_, _, rfl⟩
  | unbundled staging entries bundling =>
      cases bundling with
      | installing install => exact Or.inr ⟨_, _, rfl⟩
      | checking install closure => exact Or.inr ⟨_, _, rfl⟩
      | finalizing install closure finalize => exact Or.inr ⟨_, _, rfl⟩
      | bundling install closure finalize bundle => exact Or.inr ⟨_, _, rfl⟩
  | skipped staging none stitch => exact settled_of_stitch stitch
  | stitched staging entries bundling stitch => exact settled_of_stitch stitch

end Ends

/-- Whatever the tools do and whatever stands on the disk, a batch stops at its first fault. -/
theorem process_fail_stop (settings : Settings) (registry : Registry) (tools : Tools)
    (files : List InputFile) (world : World) :
    let ended := WorldTask.inWorld (process settings registry files) tools world
    let made := toolCalls (process settings registry files) tools world
    let classified := files.map (classify settings)
    Settled (batchTag files) files.length ended.1 ∧
    (Unfit files → (∃ cause, ended.1 = .error (.inStage .staging (batchTag files) cause)) ∧
      ended.2 = world ∧ made = []) ∧
    (¬ Unfit files → ∃ platform, platform.tag = batchTag files ∧
      (∀ file ∈ files, file.platform = platform) ∧
      Ends settings registry tools platform classified (resets settings platform world) world.disk
        ended.1 ended.2.disk made ∧
      CallsMade settings registry tools platform classified (resets settings platform world)
        world.disk made) ∧
    ((∀ file ∈ files, kindOf settings file ≠ .entry) → made = []) := by
  intro ended made classified
  by_cases unfit : Unfit files
  · obtain ⟨cause, refused⟩ := commonPlatform_of_unfit unfit
    have stays : process settings registry files =
        pure (.error (.inStage .staging (batchTag files) cause)) := by
      rw [process, refused]
    have result : ended = (.error (.inStage .staging (batchTag files) cause), world) := by
      change WorldTask.inWorld (process settings registry files) tools world = _
      rw [stays]
      rfl
    have silent : made = [] := by
      change toolCalls (process settings registry files) tools world = _
      rw [stays]
      rfl
    rw [result, silent]
    exact ⟨Or.inr ⟨_, _, rfl⟩, fun _ => ⟨⟨cause, rfl⟩, rfl, rfl⟩, fun fit => absurd unfit fit,
      fun _ => rfl⟩
  · obtain ⟨platform, common, tag, same⟩ := commonPlatform_of_fit unfit
    have ends := process_ends settings registry tools platform common world
    refine ⟨?_, fun wrong => absurd wrong unfit, fun _ => ?_, fun none => ?_⟩
    · have settled := ends.settled
      rwa [tag, List.length_map] at settled
    · exact ⟨platform, tag, same, ends, ends.callsMade⟩
    · refine ends.noCalls ?_
      intro file member
      obtain ⟨input, given, rfl⟩ := List.mem_map.mp member
      exact none input given

end PlatformBundle.Batch
