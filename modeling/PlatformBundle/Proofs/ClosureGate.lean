import PlatformBundle.Proofs.ClosureCheck
import PlatformBundle.Proofs.FailStop
import PlatformBundle.Proofs.StagedManifests
/-!
The closure check as a gate in front of the bundling tool. A batch is followed call by call, and of
each call it is said in which world it is made: the installer is called on what was staged, and the
bundling tool on a disk on which every dependency has been found. What the installer does in
between is left open.
-/

namespace PlatformBundle

namespace Batch

open WorldTask (toolCalls)

section Rules

variable {α β : Type} {tools : Tools} {world : World} {good : Call → World → Prop}

/-- Each call of a batch's task is made in a world that it may be made in. -/
def Sees (tools : Tools) (work : BatchWork α) (world : World) (good : Call → World → Prop) : Prop :=
  ∀ moment ∈ Task.moments (World.answer tools) work.run world, good moment.1 moment.2

theorem sees_bind {first : BatchWork β} {follow : β → BatchWork α}
    (begins : Sees tools first world good)
    (goes : ∀ value left, WorldTask.inWorld first.run tools world = (.ok value, left) →
      Sees tools (follow value) left good) : Sees tools (first >>= follow) world good := by
  intro moment member
  rw [Task.moments_except_bind] at member
  rcases List.mem_append.mp member with early | late
  · exact begins moment early
  · split at late
    · rename_i value middle ended
      exact goes value middle ended moment late
    · cases late

def Easy (good : Call → World → Prop) : Prop :=
  ∀ call world, call.isTool = false → good call world

theorem sees_quiet {work : BatchWork α} (easy : Easy good)
    (quiet : work.run.Within (fun call => call.isTool = false)) : Sees tools work world good :=
  fun moment member => easy _ _ (Task.moments_within (World.answer tools) quiet world moment member)

theorem quiet_note (message : String) :
    (note message).run.Within (fun call => call.isTool = false) := ⟨rfl, fun _ => trivial⟩

theorem quiet_inStage {stage : Stage} {platform : Platform} {work : Work α}
    (plain : work.IsPlain) :
    (inStage stage platform work).run.Within (fun call => call.isTool = false) := by
  have quiet : work.run.Within (fun call => call.isTool = false) :=
    Task.Within.mono plain (fun _ => Call.isTool_of_isPlain)
  exact Task.within_bind quiet (fun _ => trivial)

theorem sees_note {message : String} {follow : Unit → BatchWork α} (easy : Easy good)
    (goes : ∀ left, left.disk = world.disk → left.begun = world.begun →
      Sees tools (follow ()) left good) : Sees tools (note message >>= follow) world good := by
  refine sees_bind (sees_quiet easy (quiet_note message)) ?_
  rintro _ _ ⟨⟩
  exact goes _ rfl rfl

theorem sees_inStage_bind {stage : Stage} {platform : Platform} {work : Work β}
    {follow : β → BatchWork α} (easy : Easy good) (plain : work.IsPlain)
    (goes : ∀ value left, work.onDisk world.disk = (.ok value, left.disk) →
      Sees tools (follow value) left good) :
    Sees tools (inStage stage platform work >>= follow) world good := by
  refine sees_bind (sees_quiet easy (quiet_inStage plain)) ?_
  intro value left ended
  rw [inWorld_inStage, WorldTask.inWorld_of_isPlain plain, Prod.mk.injEq] at ended
  obtain ⟨result, rfl⟩ := ended
  apply goes
  cases ran : (WorldTask.alone work.run world.disk).1 with
  | error fault =>
      rw [ran] at result
      cases result
  | ok other =>
      rw [ran] at result
      cases result
      exact Prod.ext ran rfl

theorem sees_tool_bind {stage : Stage} {platform : Platform} {follow : Unit → BatchWork α}
    {call : Call} {run : ToolRun} {work : Work Unit}
    (runs : WorldTask.inWorld work.run tools world = world.afterTool run)
    (moments : Task.moments (World.answer tools) (inStage stage platform work).run world =
      [(call, world)])
    (here : good call world)
    (goes : ∀ left, run.result = .ok () → left.disk = run.disk →
      Sees tools (follow ()) left good) :
    Sees tools (inStage stage platform work >>= follow) world good := by
  refine sees_bind ?_ ?_
  · intro moment member
    rw [moments, List.mem_singleton] at member
    rw [member]
    exact here
  · intro value left ended
    rw [inWorld_inStage, runs, World.afterTool, Prod.mk.injEq] at ended
    obtain ⟨result, rfl⟩ := ended
    cases ran : run.result with
    | error fault =>
        rw [ran] at result
        cases result
    | ok other => exact goes _ ran rfl

theorem sees_install {stage : Stage} {platform : Platform} {root : Path}
    {follow : Unit → BatchWork α} (here : good (.install root) world)
    (goes : ∀ left, (tools.install world.disk root).result = .ok () →
      left.disk = (tools.install world.disk root).disk → Sees tools (follow ()) left good) :
    Sees tools (inStage stage platform (ExceptT.mk (WorldTask.ask (.install root))) >>= follow)
      world good :=
  sees_tool_bind rfl rfl here goes

theorem sees_bundle {stage : Stage} {platform : Platform} {config : BundleConfig} {root : Path}
    {follow : Unit → BatchWork α} (here : good (.bundle config root) world)
    (goes : ∀ left, (tools.bundle world.disk config root).result = .ok () →
      left.disk = (tools.bundle world.disk config root).disk → Sees tools (follow ()) left good) :
    Sees tools (inStage stage platform (ExceptT.mk (WorldTask.ask (.bundle config root))) >>=
      follow) world good :=
  sees_tool_bind rfl rfl here goes

end Rules

section Gate

variable (settings : Settings) (registry : Registry) (tools : Tools) (platform : Platform)
  (files : List Classified)

/-- The installer is called on a staged batch with an entry, the bundling tool on a disk on which
every link of the batch's manifests has been found. -/
def Guarded (reset : Bool) (disk : Disk) : Call → World → Prop
  | .install root, seen => root = settings.stagingRoot platform ∧ ∃ batch,
      StagingEnds settings registry platform files reset disk (.ok batch) seen.disk ∧
      batch.config.entry.isEmpty = false
  | .bundle _ root, seen => root = settings.stagingRoot platform ∧
      ∀ link ∈ Closure.links (Staging.manifestsFor settings registry files),
        link.IsFound root seen.disk
  | _, _ => True

theorem easy_guarded (reset : Bool) (disk : Disk) :
    Easy (Guarded settings registry platform files reset disk) := by
  intro call seen quiet
  cases call with
  | file call => trivial
  | note record => trivial
  | beginPass platform => trivial
  | install root => cases quiet
  | bundle config root => cases quiet

theorem quiet_checkOwnPackage :
    (checkOwnPackage settings registry).run.Within (fun call => call.isTool = false) := by
  rcases checkOwnPackage_cases settings registry with silent | ⟨record, noted⟩
  · rw [silent]
    trivial
  · rw [noted]
    exact ⟨rfl, fun _ => trivial⟩

variable {settings registry tools} in
theorem checkOwnPackage_leaves {world left : World} {result : Except BuildError Unit}
    (ended : WorldTask.inWorld (checkOwnPackage settings registry).run tools world =
      (result, left)) : left.disk = world.disk ∧ left.begun = world.begun := by
  rcases checkOwnPackage_cases settings registry with silent | ⟨record, noted⟩
  · rw [silent] at ended
    cases ended
    exact ⟨rfl, rfl⟩
  · rw [noted] at ended
    cases ended
    exact ⟨rfl, rfl⟩

theorem quiet_stageAll : (stageAll settings registry platform files).run.Within
    (fun call => call.isTool = false) := by
  refine Task.within_except_bind ⟨rfl, fun _ => trivial⟩ (fun _ => ?_)
  refine Task.within_except_bind (quiet_inStage (Staging.isPlain_prepare _ _)) (fun _ => ?_)
  exact quiet_inStage (Staging.isPlain_stage settings registry _ files _)

variable {settings registry platform files} in
theorem StagingEnds.packages {reset : Bool} {disk left : Disk} {batch : StagedBatch}
    (ends : StagingEnds settings registry platform files reset disk (.ok batch) left) :
    batch.packages = Staging.manifestsFor settings registry files := by
  cases ends with
  | staged prepare stage => exact (Staging.stage_described stage).1

theorem quiet_stitching (config : BundleConfig) : (ExceptT.run (do
    let artifacts ← inStage .stitching platform ((Stitcher.ofSettings settings
      (settings.capabilities platform)).stitch config files).inWork
    note (producedText platform artifacts)
    pure artifacts) : WorldTask _).Within (fun call => call.isTool = false) := by
  refine Task.within_except_bind (quiet_inStage (Work.isPlain_inWork _)) (fun artifacts => ?_)
  exact Task.within_except_bind (quiet_note _) (fun _ => trivial)

theorem sees_bundleAll {reset : Bool} {disk : Disk} {batch : StagedBatch} {world : World}
    (staging : StagingEnds settings registry platform files reset disk (.ok batch) world.disk)
    (entries : batch.config.entry.isEmpty = false) :
    Sees tools (bundleAll platform (settings.stagingRoot platform) batch) world
      (Guarded settings registry platform files reset disk) := by
  have easy := easy_guarded settings registry platform files reset disk
  apply sees_note easy
  intro noted sameDisk _
  rw [← sameDisk] at staging
  refine sees_install ⟨rfl, batch, staging, entries⟩ ?_
  intro installed _ _
  apply sees_inStage_bind easy (Work.isPlain_inWork _)
  intro _ checked closure
  rw [Work.onDisk_inWork, staging.packages] at closure
  obtain ⟨none, leaves⟩ := Closure.verify_ok closure
  apply sees_inStage_bind easy (isPlain_finalized batch.config _ _)
  intro config complete finalize
  apply sees_note easy
  intro announced announcedDisk _
  have guarded : Guarded settings registry platform files reset disk
      (.bundle config (settings.stagingRoot platform)) announced := by
    refine ⟨rfl, ?_⟩
    rw [announcedDisk, (finalized_ok finalize).2, leaves]
    exact Closure.found_of_none_absent none
  refine sees_bundle guarded ?_
  intro left _ _
  exact sees_quiet easy trivial

theorem process_guarded {inputs : List InputFile} (common : commonPlatform inputs = .ok platform)
    (world : World) :
    Sees tools (ExceptT.mk (process settings registry inputs)) world
      (Guarded settings registry platform (inputs.map (classify settings))
        (resets settings platform world) world.disk) := by
  have easy := easy_guarded settings registry platform (inputs.map (classify settings))
    (resets settings platform world) world.disk
  have sees : Sees tools (processFor settings registry platform inputs) world
      (Guarded settings registry platform (inputs.map (classify settings))
        (resets settings platform world) world.disk) := by
    apply sees_note easy
    intro noted sameDisk sameBegun
    apply sees_bind (sees_quiet easy (quiet_checkOwnPackage settings registry))
    intro _ checked ended
    obtain ⟨checkedDisk, checkedBegun⟩ := checkOwnPackage_leaves ended
    have same : resets settings platform checked = resets settings platform world := by
      rw [resets, checkedBegun, sameBegun, resets]
    apply sees_bind (sees_quiet easy (quiet_stageAll settings registry platform _))
    intro batch sources ended
    have staging := (comes_stageAll settings registry tools platform
      (inputs.map (classify settings)) checked).2
    rw [ended, same, checkedDisk, sameDisk] at staging
    apply sees_note easy
    intro noted notedDisk _
    rw [← notedDisk] at staging
    dsimp only
    split
    · apply sees_note easy
      intro skipping _ _
      exact sees_quiet easy (quiet_stitching settings platform _ _)
    · rename_i entries
      apply sees_bind (sees_bundleAll settings registry tools platform _ staging
        (Bool.eq_false_iff.mpr entries))
      intro config bundles _
      exact sees_quiet easy (quiet_stitching settings platform _ _)
  unfold process
  rw [common]
  exact sees

variable {settings registry tools platform files} in
theorem StagingEnds.unique {reset : Bool} {disk left other : Disk} {batch second : StagedBatch}
    (ends : StagingEnds settings registry platform files reset disk (.ok batch) left)
    (also : StagingEnds settings registry platform files reset disk (.ok second) other) :
    batch = second ∧ left = other := by
  cases ends with
  | staged prepare stage =>
      cases also with
      | staged prepareAlso stageAlso =>
          rw [prepare] at prepareAlso
          cases prepareAlso
          rw [stage] at stageAlso
          cases stageAlso
          exact ⟨rfl, rfl⟩

variable {settings registry tools platform files} in
theorem Ends.absent {reset : Bool} {disk left sources : Disk} {batch : StagedBatch}
    {result : Except BuildError (List Artifact)} {made : List Call}
    (ends : Ends settings registry tools platform files reset disk result left made)
    (staging : StagingEnds settings registry platform files reset disk (.ok batch) sources)
    (entries : batch.config.entry.isEmpty = false)
    (install : (tools.install sources (settings.stagingRoot platform)).result = .ok ())
    (some : Closure.absentLinks (settings.stagingRoot platform)
      (Staging.manifestsFor settings registry files)
      (tools.install sources (settings.stagingRoot platform)).disk ≠ []) :
    result = .error (.inStage .dependencyInstall platform.tag (.missingDependencies
        ((Closure.absentLinks (settings.stagingRoot platform)
          (Staging.manifestsFor settings registry files)
          (tools.install sources (settings.stagingRoot platform)).disk).map Closure.Link.text))) ∧
      made = [.install (settings.stagingRoot platform)] := by
  have stops {checked : Disk} (closure : (Closure.verify (settings.stagingRoot platform)
      batch.packages).onDisk (tools.install sources (settings.stagingRoot platform)).disk =
      (.ok (), checked)) : False := by
    rw [staging.packages] at closure
    exact some (Closure.verify_ok closure).1
  cases ends with
  | unstaged failed =>
      cases staging with
      | staged prepare stage =>
          cases failed with
          | preparing failed =>
              rw [prepare] at failed
              cases failed
          | staging prepared failed =>
              rw [prepare] at prepared
              cases prepared
              rw [stage] at failed
              cases failed
  | skipped also none stitch =>
      obtain ⟨rfl, rfl⟩ := staging.unique also
      rw [entries] at none
      cases none
  | unbundled also _ bundling =>
      obtain ⟨rfl, rfl⟩ := staging.unique also
      cases bundling with
      | installing failed =>
          rw [install] at failed
          cases failed
      | checking _ closure =>
          rw [staging.packages, Closure.verify_onDisk, if_neg some] at closure
          cases closure
          exact ⟨rfl, rfl⟩
      | finalizing _ closure finalize => exact (stops closure).elim
      | bundling _ closure finalize bundle => exact (stops closure).elim
  | stitched also _ bundling stitch =>
      obtain ⟨rfl, rfl⟩ := staging.unique also
      cases bundling with
      | bundled _ closure finalize bundle => exact (stops closure).elim

end Gate

theorem tag_of_commonPlatform {files : List InputFile} {platform : Platform}
    (common : commonPlatform files = .ok platform) : platform.tag = batchTag files := by
  unfold commonPlatform at common
  split at common
  · cases common
  · split at common
    · cases common
    · cases common
      rfl

section Passes

variable {settings : Settings} {registry : Registry} {tools : Tools} {files : List InputFile}
  {world : World}

theorem mem_links_iff (link : Closure.Link) :
    link ∈ Closure.links (Staging.manifestsFor settings registry (files.map (classify settings))) ↔
      ∃ file, (files.map (classify settings)).reverse.find?
          (fun file => file.stagingName.text = link.package) = some file ∧
        Staging.hasManifest settings file.package = true ∧
        (Staging.dependenciesOf registry file.package).contains link.dependency = true := by
  rw [Closure.mem_links]
  simp only [Staging.get?_manifestsFor, Staging.get?_ownersOf, Option.map_eq_some_iff]
  constructor
  · rintro ⟨_, ⟨_, ⟨file, found, rfl⟩, has, rfl⟩, known⟩
    exact ⟨file, found, has, by simpa [Staging.contains_packageManifest] using known⟩
  · rintro ⟨file, found, has, known⟩
    exact ⟨_, ⟨_, ⟨file, found, rfl⟩, has, rfl⟩, by
      simpa [Staging.contains_packageManifest] using known⟩

theorem guarded_of_moment {moment : Call × World}
    (member : moment ∈
      Task.moments (World.answer tools) (process settings registry files) world) :
    ∃ platform, commonPlatform files = .ok platform ∧
      Guarded settings registry platform (files.map (classify settings))
        (resets settings platform world) world.disk moment.1 moment.2 := by
  cases common : commonPlatform files with
  | error error =>
      have none : process settings registry files = pure (.error error) := by
        rw [process, common]
      rw [none] at member
      cases member
  | ok platform =>
      exact ⟨platform, rfl,
        process_guarded settings registry tools platform common world moment member⟩

theorem ends_of_absent {root : Path} {seen : World}
    (member : (Call.install root, seen) ∈
      Task.moments (World.answer tools) (process settings registry files) world)
    (install : (tools.install seen.disk root).result = .ok ())
    (some : Closure.absentLinks root
      (Staging.manifestsFor settings registry (files.map (classify settings)))
      (tools.install seen.disk root).disk ≠ []) :
    (WorldTask.inWorld (process settings registry files) tools world).1 =
      .error (.inStage .dependencyInstall (batchTag files) (.missingDependencies
        ((Closure.absentLinks root
          (Staging.manifestsFor settings registry (files.map (classify settings)))
          (tools.install seen.disk root).disk).map Closure.Link.text))) ∧
      toolCalls (process settings registry files) tools world = [.install root] := by
  obtain ⟨platform, common, rfl, batch, staging, entries⟩ := guarded_of_moment member
  rw [← tag_of_commonPlatform common]
  exact (process_ends settings registry tools platform common world).absent staging entries
    install some

end Passes

/-- The bundling tool is only called on a disk on which every dependency that the manifests of the
pass name has been found, and an installation that leaves some out ends the pass with exactly those.
A dependency is looked for at its three places below the staging root, unless its name begins at
the root of the disk: then any directory of that name will do. -/
theorem process_closure (settings : Settings) (registry : Registry) (tools : Tools)
    (files : List InputFile) (world : World) :
    let classified := files.map (classify settings)
    let manifests := Staging.manifestsFor settings registry classified
    let moments := Task.moments (World.answer tools) (process settings registry files) world
    let ended := WorldTask.inWorld (process settings registry files) tools world
    (∀ link, link ∈ Closure.links manifests ↔ ∃ file,
      classified.reverse.find? (fun file => file.stagingName.text = link.package) = some file ∧
      Staging.hasManifest settings file.package = true ∧
      (Staging.dependenciesOf registry file.package).contains link.dependency = true) ∧
    (∀ config root seen, (.bundle config root, seen) ∈ moments →
      ∀ link ∈ Closure.links manifests, link.IsFound root seen.disk) ∧
    (∀ root seen, (.install root, seen) ∈ moments →
      (tools.install seen.disk root).result = .ok () →
      (∃ link ∈ Closure.links manifests,
        ¬ link.IsFound root (tools.install seen.disk root).disk) →
      ∃ missing : List Closure.Link,
        (∀ link, link ∈ missing ↔ link ∈ Closure.links manifests ∧
          ¬ link.IsFound root (tools.install seen.disk root).disk) ∧
        missing.Pairwise Closure.Link.Precedes ∧
        ended.1 = .error (.inStage .dependencyInstall (batchTag files)
          (.missingDependencies
            (missing.map (fun link => link.package ++ " -> " ++ link.dependency)))) ∧
        toolCalls (process settings registry files) tools world = [.install root]) ∧
    (∀ call seen root, (call, seen) ∈ moments →
      (call = .install root ∨ ∃ config, call = .bundle config root) →
      ∃ platform, commonPlatform files = .ok platform ∧ root = settings.stagingRoot platform) ∧
    (∀ platform link, IsSegment link.package → Closure.IsRelative link.dependency →
      (Closure.places (settings.stagingRoot platform) link).map Path.text =
        [(settings.stagingRoot platform).text ++ "/node_modules/" ++ link.package ++
            "/node_modules/" ++ link.dependency,
          (settings.stagingRoot platform).text ++ "/packages/" ++ link.package ++
            "/node_modules/" ++ link.dependency,
          (settings.stagingRoot platform).text ++ "/node_modules/" ++ link.dependency]) ∧
    ∀ root link, ¬ Closure.IsRelative link.dependency →
      Closure.places root link = [⟨link.dependency⟩, ⟨link.dependency⟩, ⟨link.dependency⟩] := by
  intro classified manifests moments ended
  refine ⟨mem_links_iff, ?_, ?_, ?_, Closure.places_text settings,
    fun root _ => Closure.places_of_absolute root⟩
  · intro config root seen member
    obtain ⟨platform, -, -, found⟩ := guarded_of_moment member
    exact found
  · rintro root seen member install ⟨link, listed, absent⟩
    have some := List.ne_nil_of_mem (Closure.mem_absentLinks.mpr ⟨listed, absent⟩)
    obtain ⟨result, made⟩ := ends_of_absent member install some
    exact ⟨_, fun _ => Closure.mem_absentLinks, (Closure.links_ordered manifests).filter _, result,
      made⟩
  · intro call seen root member called
    obtain ⟨platform, common, made⟩ := guarded_of_moment member
    rcases called with rfl | ⟨config, rfl⟩
    · exact ⟨platform, common, made.1⟩
    · exact ⟨platform, common, made.1⟩

end Batch

end PlatformBundle
