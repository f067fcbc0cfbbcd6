import PlatformBundle.Proofs.BundleSteps
/-!
The ways in which a batch can end. Each stage goes on from the disk that the stage before it has
left, and the constructors below say which stages have succeeded before one that fails, what it
leaves behind and which tools have been called by then: `process_ends`.
-/

namespace PlatformBundle.Batch

open WorldTask (toolCalls)

section Rules

variable {α β : Type} (tools : Tools)

/-- What a batch's task comes to in a world: its result, the world it leaves, its tool calls. -/
def Comes (work : BatchWork α) (world : World)
    (ends : Except BuildError α → World → List Call → Prop) : Prop :=
  ends (WorldTask.inWorld work.run tools world).1 (WorldTask.inWorld work.run tools world).2
    (toolCalls work.run tools world)

variable {tools} {world : World} {ends : Except BuildError α → World → List Call → Prop}

theorem comes_imp {work : BatchWork α} {weaker : Except BuildError α → World → List Call → Prop}
    (comes : Comes tools work world ends)
    (implies : ∀ result left made, ends result left made → weaker result left made) :
    Comes tools work world weaker :=
  implies _ _ _ comes

theorem comes_pure (value : α) (here : ends (.ok value) world []) :
    Comes tools (pure value) world ends := here

theorem comes_bind {first : BatchWork β} {follow : β → BatchWork α}
    (comes : Comes tools first world (fun result left made =>
      (∀ value, result = .ok value →
        Comes tools (follow value) left (fun result left more => ends result left (made ++ more))) ∧
      ∀ error, result = .error error → ends (.error error) left made)) :
    Comes tools (first >>= follow) world ends := by
  have runs := Task.run_except_bind (World.answer tools) first follow world
  have calls := Task.calls_except_bind (World.answer tools) first follow world
  unfold Comes toolCalls WorldTask.inWorld at comes ⊢
  rw [runs, calls, List.filter_append]
  generalize Task.run (World.answer tools) first.run world = ended at comes ⊢
  rcases ended with ⟨error | value, middle⟩
  · simpa using comes.2 error rfl
  · exact comes.1 value rfl

theorem comes_note {message : String} {follow : Unit → BatchWork α}
    (goes : ∀ left, left.disk = world.disk → left.begun = world.begun →
      Comes tools (follow ()) left ends) :
    Comes tools (note message >>= follow) world ends :=
  goes { world with log := world.log ++ [⟨.info, message⟩] } rfl rfl

theorem comes_beginPass {platform : Platform} {follow : Bool → BatchWork α}
    (goes : ∀ left, left.disk = world.disk →
      Comes tools (follow !world.begun.contains platform.tag) left ends) :
    Comes tools (ExceptT.lift (WorldTask.ask (.beginPass platform)) >>= follow) world ends :=
  goes (world.beginPass platform).2 rfl

theorem comes_checkOwnPackage {settings : Settings} {registry : Registry}
    {follow : Unit → BatchWork α}
    (goes : ∀ left, left.disk = world.disk → left.begun = world.begun →
      Comes tools (follow ()) left ends) :
    Comes tools (checkOwnPackage settings registry >>= follow) world ends := by
  rcases checkOwnPackage_cases settings registry with silent | ⟨record, noted⟩
  · rw [silent]
    exact goes world rfl rfl
  · rw [noted]
    exact goes { world with log := world.log ++ [record] } rfl rfl

variable {stage : Stage} {platform : Platform}

theorem inWorld_inStage (work : Work α) (world : World) :
    WorldTask.inWorld (inStage stage platform work).run tools world =
      ((WorldTask.inWorld work.run tools world).1.mapError (.inStage stage platform.tag),
        (WorldTask.inWorld work.run tools world).2) :=
  Task.run_bind (World.answer tools) work.run
    (fun result => .done (result.mapError (BuildError.inStage stage platform.tag))) world

theorem toolCalls_inStage (work : Work α) (world : World) :
    toolCalls (inStage stage platform work).run tools world = toolCalls work.run tools world := by
  have calls := Task.calls_bind (World.answer tools) work.run
    (fun result => .done (result.mapError (BuildError.inStage stage platform.tag))) world
  exact congrArg (List.filter Call.isTool) (calls.trans (List.append_nil _))

theorem comes_inStage {work : Work α} (plain : work.IsPlain)
    (here : ∀ result left, work.onDisk world.disk = (result, left.disk) →
      ends (result.mapError (.inStage stage platform.tag)) left []) :
    Comes tools (inStage stage platform work) world ends := by
  unfold Comes
  rw [inWorld_inStage, toolCalls_inStage, WorldTask.inWorld_of_isPlain plain,
    WorldTask.toolCalls_of_isPlain plain]
  exact here _ _ rfl

-- The next step of a stage, when that step calls no tool.
theorem comes_inStage_bind {work : Work β} {follow : β → BatchWork α} (plain : work.IsPlain)
    (fails : ∀ fault left, work.onDisk world.disk = (.error fault, left.disk) →
      ends (.error (.inStage stage platform.tag fault)) left [])
    (goes : ∀ value left, work.onDisk world.disk = (.ok value, left.disk) →
      Comes tools (follow value) left ends) :
    Comes tools (inStage stage platform work >>= follow) world ends := by
  apply comes_bind
  apply comes_inStage plain
  intro result left ran
  cases result with
  | ok value =>
      constructor
      · rintro _ ⟨⟩
        exact goes value left ran
      · intro error wrong
        cases wrong
  | error fault =>
      constructor
      · intro value wrong
        cases wrong
      · rintro _ ⟨⟩
        exact fails fault left ran

theorem comes_tool_bind {work : Work Unit} {follow : Unit → BatchWork α} {call : Call}
    {run : ToolRun} (runs : WorldTask.inWorld work.run tools world = world.afterTool run)
    (calls : toolCalls work.run tools world = [call])
    (fails : ∀ fault left, run.result = .error fault → left.disk = run.disk →
      ends (.error (.inStage stage platform.tag fault)) left [call])
    (goes : ∀ left, run.result = .ok () → left.disk = run.disk →
      Comes tools (follow ()) left (fun result left made => ends result left (call :: made))) :
    Comes tools (inStage stage platform work >>= follow) world ends := by
  apply comes_bind
  unfold Comes
  rw [inWorld_inStage, toolCalls_inStage, runs, calls]
  constructor
  · intro value succeeded
    cases result : run.result with
    | ok value => exact goes _ result rfl
    | error fault =>
        rw [World.afterTool, result] at succeeded
        cases succeeded
  · intro error failed
    cases result : run.result with
    | ok value =>
        rw [World.afterTool, result] at failed
        cases failed
    | error fault =>
        rw [World.afterTool, result] at failed
        cases failed
        exact fails fault _ result rfl

theorem comes_install {root : Path} {follow : Unit → BatchWork α}
    (fails : ∀ fault left, (tools.install world.disk root).result = .error fault →
      left.disk = (tools.install world.disk root).disk →
      ends (.error (.inStage stage platform.tag fault)) left [.install root])
    (goes : ∀ left, (tools.install world.disk root).result = .ok () →
      left.disk = (tools.install world.disk root).disk →
      Comes tools (follow ()) left
        (fun result left made => ends result left (.install root :: made))) :
    Comes tools (inStage stage platform (ExceptT.mk (WorldTask.ask (.install root))) >>= follow)
      world ends :=
  comes_tool_bind rfl rfl fails goes

theorem comes_bundle {config : BundleConfig} {root : Path} {follow : Unit → BatchWork α}
    (fails : ∀ fault left, (tools.bundle world.disk config root).result = .error fault →
      left.disk = (tools.bundle world.disk config root).disk →
      ends (.error (.inStage stage platform.tag fault)) left [.bundle config root])
    (goes : ∀ left, (tools.bundle world.disk config root).result = .ok () →
      left.disk = (tools.bundle world.disk config root).disk →
      Comes tools (follow ()) left
        (fun result left made => ends result left (.bundle config root :: made))) :
    Comes tools
      (inStage stage platform (ExceptT.mk (WorldTask.ask (.bundle config root))) >>= follow)
      world ends :=
  comes_tool_bind rfl rfl fails goes

end Rules

theorem isPlain_finalized (config : BundleConfig) (root : Path) (names : List StagingName) :
    (finalized config root names).IsPlain :=
  Task.within_bind (DiskTask.inTask_isPlain _) (fun _ => trivial)

theorem commonPlatform_of_alike {platform : Platform} {files : List InputFile} (filled : files ≠ [])
    (alike : ∀ file ∈ files, file.platform = platform) : commonPlatform files = .ok platform := by
  obtain ⟨first, rest, rfl⟩ := List.exists_cons_of_ne_nil filled
  have none : rest.find? (fun file => file.platform ≠ first.platform) = none := by
    refine List.find?_eq_none.mpr ?_
    intro file later
    have same := (alike file (List.mem_cons_of_mem _ later)).trans
      (alike first List.mem_cons_self).symm
    simpa using same
  rw [commonPlatform, none, alike first List.mem_cons_self]

section Stages

variable (settings : Settings) (registry : Registry) (tools : Tools) (platform : Platform)
  (files : List Classified)

/-- The ends of staging on a disk; `reset` says whether the staging root is cleared first. -/
inductive StagingEnds (reset : Bool) (disk : Disk) :
    Except BuildError StagedBatch → Disk → Prop where
  | preparing {fault : Fault} {left : Disk}
      (prepare : (Staging.prepare (settings.stagingRoot platform) reset).onDisk disk =
        (.error fault, left)) :
      StagingEnds reset disk (.error (.inStage .staging platform.tag fault)) left
  | staging {ready left : Disk} {fault : Fault}
      (prepare : (Staging.prepare (settings.stagingRoot platform) reset).onDisk disk =
        (.ok (), ready))
      (stage : (Staging.stage settings registry (settings.stagingRoot platform) files
        (startConfig settings platform (settings.stagingRoot platform))).onDisk ready =
        (.error fault, left)) :
      StagingEnds reset disk (.error (.inStage .staging platform.tag fault)) left
  | staged {ready left : Disk} {batch : StagedBatch}
      (prepare : (Staging.prepare (settings.stagingRoot platform) reset).onDisk disk =
        (.ok (), ready))
      (stage : (Staging.stage settings registry (settings.stagingRoot platform) files
        (startConfig settings platform (settings.stagingRoot platform))).onDisk ready =
        (.ok batch, left)) :
      StagingEnds reset disk (.ok batch) left

inductive BundlingEnds (root : Path) (batch : StagedBatch) (disk : Disk) :
    Except BuildError BundleConfig → Disk → List Call → Prop where
  | installing {fault : Fault} (install : (tools.install disk root).result = .error fault) :
      BundlingEnds root batch disk (.error (.inStage .dependencyInstall platform.tag fault))
        (tools.install disk root).disk [.install root]
  | checking {fault : Fault} {left : Disk} (install : (tools.install disk root).result = .ok ())
      (closure : (Closure.verify root batch.packages).onDisk (tools.install disk root).disk =
        (.error fault, left)) :
      BundlingEnds root batch disk (.error (.inStage .dependencyInstall platform.tag fault)) left
        [.install root]
  | finalizing {fault : Fault} {checked left : Disk}
      (install : (tools.install disk root).result = .ok ())
      (closure : (Closure.verify root batch.packages).onDisk (tools.install disk root).disk =
        (.ok (), checked))
      (finalize : (finalized batch.config root
        (batch.stagingNames.keys.map StagingName.mk)).onDisk checked = (.error fault, left)) :
      BundlingEnds root batch disk (.error (.inStage .bundling platform.tag fault)) left
        [.install root]
  | bundling {fault : Fault} {checked complete : Disk} {config : BundleConfig}
      (install : (tools.install disk root).result = .ok ())
      (closure : (Closure.verify root batch.packages).onDisk (tools.install disk root).disk =
        (.ok (), checked))
      (finalize : (finalized batch.config root
        (batch.stagingNames.keys.map StagingName.mk)).onDisk checked = (.ok config, complete))
      (bundle : (tools.bundle complete config root).result = .error fault) :
      BundlingEnds root batch disk (.error (.inStage .bundling platform.tag fault))
        (tools.bundle complete config root).disk [.install root, .bundle config root]
  | bundled {checked complete : Disk} {config : BundleConfig}
      (install : (tools.install disk root).result = .ok ())
      (closure : (Closure.verify root batch.packages).onDisk (tools.install disk root).disk =
        (.ok (), checked))
      (finalize : (finalized batch.config root
        (batch.stagingNames.keys.map StagingName.mk)).onDisk checked = (.ok config, complete))
      (bundle : (tools.bundle complete config root).result = .ok ()) :
      BundlingEnds root batch disk (.ok config)
        (tools.bundle complete config root).disk [.install root, .bundle config root]

/-- The ends of a batch. Only one with an entry comes to the tools. -/
inductive Ends (reset : Bool) (disk : Disk) :
    Except BuildError (List Artifact) → Disk → List Call → Prop where
  | unstaged {error : BuildError} {left : Disk}
      (staging : StagingEnds settings registry platform files reset disk (.error error) left) :
      Ends reset disk (.error error) left []
  | unbundled {batch : StagedBatch} {sources left : Disk} {error : BuildError} {made : List Call}
      (staging : StagingEnds settings registry platform files reset disk (.ok batch) sources)
      (entries : batch.config.entry.isEmpty = false)
      (bundling : BundlingEnds tools platform (settings.stagingRoot platform) batch sources
        (.error error) left made) :
      Ends reset disk (.error error) left made
  | skipped {batch : StagedBatch} {sources left : Disk}
      {result : Except Fault (List Artifact)}
      (staging : StagingEnds settings registry platform files reset disk (.ok batch) sources)
      (none : batch.config.entry.isEmpty = true)
      (stitch : ((Stitcher.ofSettings settings (settings.capabilities platform)).stitch
        batch.config files).onDisk sources = (result, left)) :
      Ends reset disk (result.mapError (.inStage .stitching platform.tag)) left []
  | stitched {batch : StagedBatch} {sources bundles left : Disk} {config : BundleConfig}
      {made : List Call} {result : Except Fault (List Artifact)}
      (staging : StagingEnds settings registry platform files reset disk (.ok batch) sources)
      (entries : batch.config.entry.isEmpty = false)
      (bundling : BundlingEnds tools platform (settings.stagingRoot platform) batch sources
        (.ok config) bundles made)
      (stitch : ((Stitcher.ofSettings settings (settings.capabilities platform)).stitch
        config files).onDisk bundles = (result, left)) :
      Ends reset disk (result.mapError (.inStage .stitching platform.tag)) left made

variable {settings registry tools platform files} in
theorem Ends.of_ok {reset : Bool} {disk left : Disk} {result : Except BuildError (List Artifact)}
    {artifacts : List Artifact} {made : List Call}
    (ends : Ends settings registry tools platform files reset disk result left made)
    (succeeded : result = .ok artifacts) : ∃ batch sources config bundles,
      StagingEnds settings registry platform files reset disk (.ok batch) sources ∧
      (batch.config.entry.isEmpty = true ∧ config = batch.config ∧ bundles = sources ∨
        BundlingEnds tools platform (settings.stagingRoot platform) batch sources (.ok config)
          bundles made) ∧
      ((Stitcher.ofSettings settings (settings.capabilities platform)).stitch config
        files).onDisk bundles = (.ok artifacts, left) := by
  cases ends with
  | unstaged staging => cases succeeded
  | unbundled staging entries bundling => cases succeeded
  | skipped staging none stitch =>
      cases mapError_eq_ok_iff.mp succeeded
      exact ⟨_, _, _, _, staging, Or.inl ⟨none, rfl, rfl⟩, stitch⟩
  | stitched staging entries bundling stitch =>
      cases mapError_eq_ok_iff.mp succeeded
      exact ⟨_, _, _, _, staging, Or.inr bundling, stitch⟩

def resets (world : World) : Bool :=
  (!world.begun.contains platform.tag) && settings.resetOnFirstRun

theorem comes_stageAll (world : World) :
    Comes tools (stageAll settings registry platform files) world (fun result left made =>
      made = [] ∧ StagingEnds settings registry platform files
        (resets settings platform world) world.disk result left.disk) := by
  apply comes_beginPass
  intro begun sameDisk
  have plainStage := Staging.isPlain_stage settings registry (settings.stagingRoot platform) files
    (startConfig settings platform (settings.stagingRoot platform))
  apply comes_inStage_bind (Staging.isPlain_prepare _ _)
  · intro fault left failed
    rw [sameDisk] at failed
    exact ⟨rfl, .preparing failed⟩
  · intro _ ready prepared
    rw [sameDisk] at prepared
    apply comes_inStage plainStage
    intro result left ran
    cases result with
    | error fault => exact ⟨rfl, .staging prepared ran⟩
    | ok batch => exact ⟨rfl, .staged prepared ran⟩

theorem comes_bundleAll (root : Path) (batch : StagedBatch) (world : World) :
    Comes tools (bundleAll platform root batch) world (fun result left made =>
      BundlingEnds tools platform root batch world.disk result left.disk made) := by
  apply comes_note
  intro noted sameDisk _
  rw [← sameDisk]
  apply comes_install
  · intro fault left failed leftDisk
    rw [leftDisk]
    exact .installing failed
  · intro installed install leftDisk
    apply comes_inStage_bind (Work.isPlain_inWork _)
    · intro fault left failed
      rw [Work.onDisk_inWork, leftDisk] at failed
      exact .checking install failed
    · intro _ checked closure
      rw [Work.onDisk_inWork, leftDisk] at closure
      apply comes_inStage_bind (isPlain_finalized batch.config root _)
      · intro fault left failed
        exact .finalizing install closure failed
      · intro config complete finalize
        apply comes_note
        intro noted sameDisk _
        rw [← sameDisk] at finalize
        apply comes_bundle
        · intro fault left failed leftDisk
          rw [leftDisk]
          exact .bundling install closure finalize failed
        · intro left bundled leftDisk
          refine comes_pure _ ?_
          rw [leftDisk]
          exact .bundled install closure finalize bundled

variable {settings} {tools} {platform} {files} in
theorem comes_stitching {config : BundleConfig} {world : World}
    {ends : Except BuildError (List Artifact) → World → List Call → Prop}
    (here : ∀ result left, ((Stitcher.ofSettings settings (settings.capabilities platform)).stitch
        config files).onDisk world.disk = (result, left.disk) →
      ends (result.mapError (.inStage .stitching platform.tag)) left []) :
    Comes tools (do
      let artifacts ← inStage .stitching platform ((Stitcher.ofSettings settings
        (settings.capabilities platform)).stitch config files).inWork
      note (producedText platform artifacts)
      pure artifacts) world ends := by
  apply comes_inStage_bind (Work.isPlain_inWork _)
  · intro fault left failed
    rw [Work.onDisk_inWork] at failed
    exact here (.error fault) left failed
  · intro artifacts left stitched
    rw [Work.onDisk_inWork] at stitched
    apply comes_note
    intro noted sameDisk _
    rw [← sameDisk] at stitched
    exact here (.ok artifacts) noted stitched

/-- A batch of one platform comes to one of its ends, in every world and with every tools. -/
theorem process_ends {inputs : List InputFile} (common : commonPlatform inputs = .ok platform)
    (world : World) :
    Ends settings registry tools platform (inputs.map (classify settings))
      (resets settings platform world) world.disk
      (WorldTask.inWorld (process settings registry inputs) tools world).1
      (WorldTask.inWorld (process settings registry inputs) tools world).2.disk
      (toolCalls (process settings registry inputs) tools world) := by
  have comes : Comes tools (processFor settings registry platform inputs) world
      (fun result left made => Ends settings registry tools platform
        (inputs.map (classify settings)) (resets settings platform world) world.disk result
        left.disk made) := by
    apply comes_note
    intro noted sameDisk sameBegun
    apply comes_checkOwnPackage
    intro checked checkedDisk checkedBegun
    have same : resets settings platform checked = resets settings platform world := by
      rw [resets, checkedBegun, sameBegun, resets]
    apply comes_bind
    apply comes_imp (comes_stageAll settings registry tools platform _ checked)
    rintro result sources made ⟨rfl, staging⟩
    rw [same, checkedDisk, sameDisk] at staging
    constructor
    · rintro batch rfl
      apply comes_note
      intro noted notedDisk _
      rw [← notedDisk] at staging
      dsimp only
      split
      · rename_i none
        apply comes_note
        intro skipping skippedDisk _
        rw [← skippedDisk] at staging
        exact comes_stitching (fun result left stitch => .skipped staging none stitch)
      · rename_i entries
        apply comes_bind
        apply comes_imp (comes_bundleAll tools platform _ batch noted)
        intro result bundles made bundling
        constructor
        · rintro config rfl
          exact comes_stitching (fun result left stitch => by
            rw [List.append_nil]
            exact .stitched staging (Bool.eq_false_iff.mpr entries) bundling stitch)
        · rintro error rfl
          exact .unbundled staging (Bool.eq_false_iff.mpr entries) bundling
    · rintro error rfl
      exact .unstaged staging
  unfold process
  rw [common]
  exact comes

end Stages

end PlatformBundle.Batch
