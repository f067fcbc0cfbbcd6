import PlatformBundle.Proofs.ConfinedTools
import PlatformBundle.Proofs.EntryArtifacts
import PlatformBundle.Proofs.Latecomers
/-!
Batches of different platforms that run at the same time. Whatever the order in which their calls
are answered, each batch comes to the result that it comes to alone from the same world, and leaves
the same tree at its staging root. It takes that the staging roots are apart: no link in one of them
leads out of it, the way to the staging base goes through none of them, no name that a batch looks
up leads out of the root, and the tools keep to the root that they are given.
-/

namespace PlatformBundle

open FileTree Disk

namespace Settings

def BaseAt (settings : Settings) (disk : Disk) (base : RealPath) : Prop :=
  disk.locate true settings.stagingBase = .ok (.present base .directory)

def stagedTree (settings : Settings) (platform : Platform) (disk : Disk) (rest : RealPath) :
    Option Node :=
  match disk.locate true settings.stagingBase with
  | .ok (.present base .directory) => disk.tree.get? (base ++ platform.dirName :: rest)
  | _ => none

/-- No link at or below a staging root leads out of it, and the way to the staging base goes through
none of the roots. -/
structure Secluded (settings : Settings) (platforms : List Platform) (disk : Disk) : Prop where
  clear : ∀ base, settings.BaseAt disk base →
    ¬ Meets disk.tree (Site.mk base platforms).Taken [] (stepsOf settings.stagingBase.text)
  enclosed : ∀ base, settings.BaseAt disk base → ∀ platform ∈ platforms,
    Enclosed disk.tree ((Site.mk base platforms).fence platform)

/-- Both tools keep to the staging root that they are given, wherever the roots stand. -/
def ConfinesTools (settings : Settings) (platforms : List Platform) (tools : Tools) : Prop :=
  ∀ around : Surroundings, around.settings = settings → around.site.platforms = platforms →
    around.ToolsConfined tools

section Bases

variable {settings : Settings} {platform : Platform} {disk : Disk} {base : RealPath}

theorem stagedTree_of_baseAt (here : settings.BaseAt disk base) (rest : RealPath) :
    settings.stagedTree platform disk rest =
      disk.tree.get? (base ++ platform.dirName :: rest) := by
  rw [stagedTree, here]

theorem stagedTree_of_absent (absent : ∀ base, ¬ settings.BaseAt disk base) (rest : RealPath) :
    settings.stagedTree platform disk rest = none := by
  rw [stagedTree]
  split
  · rename_i located
    exact absurd located (absent _)
  · rfl

theorem baseAt_iff {names : List String} (proper : ∀ name ∈ names, IsProper name)
    (spelled : settings.stagingBase = Path.ofReal names) : settings.BaseAt disk base ↔
      checkText (Path.ofReal names).text = .ok () ∧ LeadsTo disk.tree names base := by
  rw [BaseAt, spelled]
  exact locate_ok_iff (segments_of_proper proper)

end Bases

end Settings

namespace Surroundings

variable {around : Surroundings} {platform : Platform}

theorem Kept.baseAt {disk : Disk} (kept : around.Kept disk) :
    around.settings.BaseAt disk around.site.base :=
  (Settings.baseAt_iff around.proper around.spelled).mpr ⟨around.checked, kept.leads⟩

theorem Alike.stagedTree_eq {pool solo : Disk} (alike : around.Alike platform pool solo) :
    around.settings.stagedTree platform pool = around.settings.stagedTree platform solo := by
  funext rest
  rw [Settings.stagedTree_of_baseAt alike.poolKept.baseAt,
    Settings.stagedTree_of_baseAt alike.soloKept.baseAt]
  refine alike.agree_home ⟨rest, ?_⟩
  simp [Site.root]

end Surroundings

namespace Batch

variable {settings : Settings} {registry : Registry} {tools : Tools}
  {batches : List (List InputFile)} {world : World}

def platformsOf (batches : List (List InputFile)) : List Platform :=
  batches.filterMap (fun files => (commonPlatform files).toOption)

def ownerOf (batches : List (List InputFile)) (index : Nat) : Option Platform :=
  batches[index]?.bind (fun files => (commonPlatform files).toOption)

def Distinct (batches : List (List InputFile)) : Prop :=
  batches.Pairwise (fun first second =>
    ∀ platform, commonPlatform first = .ok platform → commonPlatform second ≠ .ok platform)

theorem toOption_eq_some {result : Except BuildError Platform} {platform : Platform} :
    result.toOption = some platform ↔ result = .ok platform := by
  cases result <;> simp [Except.toOption]

theorem ownerOf_eq_some {index : Nat} {platform : Platform} :
    ownerOf batches index = some platform ↔
      ∃ files, batches[index]? = some files ∧ commonPlatform files = .ok platform := by
  simp only [ownerOf, Option.bind_eq_some_iff, toOption_eq_some]

theorem mem_platformsOf {index : Nat} {platform : Platform}
    (owned : ownerOf batches index = some platform) : platform ∈ platformsOf batches := by
  obtain ⟨files, here, common⟩ := ownerOf_eq_some.mp owned
  exact List.mem_filterMap.mpr
    ⟨files, List.mem_of_getElem? here, toOption_eq_some.mpr common⟩

theorem Distinct.owner_unique (distinct : Distinct batches) (first second : Nat)
    (platform : Platform) (left : ownerOf batches first = some platform)
    (right : ownerOf batches second = some platform) : first = second := by
  obtain ⟨leftFiles, leftHere, leftCommon⟩ := ownerOf_eq_some.mp left
  obtain ⟨rightFiles, rightHere, rightCommon⟩ := ownerOf_eq_some.mp right
  obtain ⟨leftInside, rfl⟩ := List.getElem?_eq_some_iff.mp leftHere
  obtain ⟨rightInside, rfl⟩ := List.getElem?_eq_some_iff.mp rightHere
  have apart := List.pairwise_iff_getElem.mp distinct
  rcases Nat.lt_trichotomy first second with before | same | after
  · exact absurd rightCommon (apart _ _ _ _ before _ leftCommon)
  · exact same
  · exact absurd leftCommon (apart _ _ _ _ after _ rightCommon)

/-- After every schedule each batch stands where it stands alone: it has its result once it has had
its turns, and then its staging root holds the tree that the batch leaves there alone. -/
def RunsAsAlone (settings : Settings) (registry : Registry) (tools : Tools)
    (batches : List (List InputFile)) (world : World) (schedule : List Nat) : Prop :=
  ∀ index files, batches[index]? = some files →
    let task := process settings registry files
    let turns := (task.calls (World.answer tools) world).length
    let pool := (Pool.mk (tasksOf settings registry batches) world).follow tools schedule
    pool.resultAt index =
        (if turns ≤ schedule.count index then some (task.inWorld tools world).1 else none) ∧
      (turns ≤ schedule.count index → ∀ platform, commonPlatform files = .ok platform →
        settings.stagedTree platform pool.world.disk =
          settings.stagedTree platform (task.inWorld tools world).2.disk)

abbrev Relation : Type :=
  Nat → WorldTask (Except BuildError (List Artifact)) → World → World → Prop

theorem runsAsAlone_of_apart {Rel : Relation} (apart : Pool.Apart tools Rel)
    (starts : ∀ index files, batches[index]? = some files →
      Rel index (process settings registry files) world world)
    (trees : ∀ {index platform value shared alone}, ownerOf batches index = some platform →
      Rel index (.done value) shared alone →
        settings.stagedTree platform shared.disk = settings.stagedTree platform alone.disk)
    (schedule : List Nat) : RunsAsAlone settings registry tools batches world schedule := by
  intro index files here
  have first (index : Nat) (task : WorldTask (Except BuildError (List Artifact)))
      (there : (tasksOf settings registry batches)[index]? = some task) :
      Rel index task world world := by
    rw [tasksOf, List.getElem?_map] at there
    obtain ⟨files, found, rfl⟩ := Option.map_eq_some_iff.mp there
    exact starts index files found
  have begins : (tasksOf settings registry batches)[index]? =
      some (process settings registry files) := by
    rw [tasksOf, List.getElem?_map, here]
    rfl
  have keeps := Pool.keeps_follow apart first schedule begins
  refine ⟨keeps.resultAt, fun enough platform common => ?_⟩
  obtain ⟨value, related⟩ := keeps.related enough
  exact trees (ownerOf_eq_some.mpr ⟨files, here, common⟩) related

section Cases

variable {names : List String} {base : RealPath} {index : Nat} {files : List InputFile}

theorem process_of_unowned (nobody : ownerOf batches index = none)
    (here : batches[index]? = some files) :
    ∃ value, process settings registry files = .done value := by
  rw [ownerOf, here] at nobody
  rw [process]
  cases common : commonPlatform files with
  | error error => exact ⟨_, rfl⟩
  | ok platform => simp [common, Except.toOption] at nobody

theorem process_of_owned {platform : Platform} (owned : ownerOf batches index = some platform)
    (here : batches[index]? = some files) :
    process settings registry files = (processFor settings registry platform files).run := by
  obtain ⟨other, there, common⟩ := ownerOf_eq_some.mp owned
  rw [here] at there
  cases there
  rw [process, common]

structure Fit (settings : Settings) (registry : Registry) (batches : List (List InputFile)) :
    Prop where
  ordinary : ∀ files ∈ batches, ∀ file ∈ files, file.IsOrdinary
  below : ∀ files ∈ batches, HasEntry settings files → StaysBelow settings registry files

theorem shares_start (around : Surroundings) {start : World}
    (fit : Fit around.settings registry batches)
    (alike : ∀ platform ∈ platformsOf batches, around.Alike platform start.disk start.disk)
    (here : batches[index]? = some files) : around.Shares (ownerOf batches) index
      (process around.settings registry files) start start := by
  have member := List.mem_of_getElem? here
  unfold Surroundings.Shares
  split
  · rename_i nobody
    exact process_of_unowned nobody here
  · rename_i platform owned
    have steps : around.BatchSteps platform
        (processFor around.settings registry platform files) _ :=
      around.steps_processFor (fit.ordinary files member) (fit.below files member)
    rw [process_of_owned owned here]
    exact ⟨Task.brings_mono steps (fun _ _ => trivial), alike platform (mem_platformsOf owned), rfl⟩

theorem opens_start (here : batches[index]? = some files) :
    Opens settings (ownerOf batches index) (process settings registry files) := by
  intro platform owned
  rw [process_of_owned owned here]
  exact Task.brings_mono opening_processFor (fun _ _ => trivial)

variable (proper : ∀ name ∈ names, IsProper name)
  (spelled : settings.stagingBase = Path.ofReal names)
  (fit : Fit settings registry batches) (distinct : Distinct batches)
  (confined : settings.ConfinesTools (platformsOf batches) tools)
include proper spelled fit distinct confined

/-- The staging base is there from the beginning. -/
theorem runsAsAlone_of_base (secluded : settings.Secluded (platformsOf batches) world.disk)
    (there : settings.BaseAt world.disk base) (schedule : List Nat) :
    RunsAsAlone settings registry tools batches world schedule := by
  obtain ⟨checked, leads⟩ := (Settings.baseAt_iff proper spelled).mp there
  have clear := secluded.clear base there
  rw [spelled, Path.stepsOf_ofReal (segments_of_proper proper)] at clear
  let around : Surroundings := ⟨settings, ⟨base, platformsOf batches⟩, names,
    world.disk.tree, world.disk.workdir, proper, spelled, checked, leads, clear⟩
  have kept : around.Kept world.disk := ⟨fun _ _ => rfl, rfl⟩
  refine runsAsAlone_of_apart (around.apart (confined around rfl rfl) distinct.owner_unique)
    (fun index files here => ?_) ?_ schedule
  · refine shares_start around fit (fun platform listed => ?_) here
    exact ⟨listed, kept, kept, fun _ _ => rfl, secluded.enclosed base there platform listed⟩
  · intro index platform value shared alone owned related
    exact (related.alike owned).stagedTree_eq

omit proper spelled fit confined in
/-- No batch gets beyond its first calls. -/
theorem runsAsAlone_of_nowhere {left : Disk}
    (nowhere : ∀ platform ∈ platformsOf batches, GoesNowhere settings platform world.disk left)
    (absent : ∀ base, ¬ settings.BaseAt world.disk base ∧ ¬ settings.BaseAt left base)
    (schedule : List Nat) : RunsAsAlone settings registry tools batches world schedule := by
  refine runsAsAlone_of_apart (apart_nowhere distinct.owner_unique
    (fun index platform owned => nowhere platform (mem_platformsOf owned)))
    (fun index files here => ?_) ?_ schedule
  · unfold SharesNowhere
    split
    · rename_i nobody
      exact process_of_unowned nobody here
    · rename_i platform owned
      exact ⟨opens_start here platform owned, Or.inl rfl, Or.inl rfl, rfl⟩
  · intro index platform value shared alone owned related
    unfold SharesNowhere at related
    rw [owned] at related
    obtain ⟨-, sharedDisk, aloneDisk, -⟩ := related
    have nothing {disk : Disk} (known : disk = world.disk ∨ disk = left) :
        settings.stagedTree platform disk = fun _ => none := by
      funext rest
      refine Settings.stagedTree_of_absent (fun base => ?_) rest
      rcases known with rfl | rfl
      · exact (absent base).1
      · exact (absent base).2
    rw [nothing sharedDisk, nothing aloneDisk]

/-- The first batch that makes its root makes the staging base. -/
theorem runsAsAlone_of_made {made : Disk} (grounded : world.disk.tree.Grounded)
    (checked : checkText (Path.ofReal names).text = .ok ())
    (missing : Blocked world.disk.tree names)
    (makes : world.disk.createDirs (Path.ofReal names) = (.ok (), made))
    (short : settings.resetOnFirstRun = true → ∀ platform ∈ platformsOf batches,
      platform.dirName.utf8ByteSize ≤ longestName) (schedule : List Nat) :
    RunsAsAlone settings registry tools batches world schedule := by
  obtain ⟨base, new⟩ := newBase_of_made proper grounded missing makes
  have free (platform : Platform) (rest : RealPath) :
      made.tree.get? (base ++ platform.dirName :: rest) = none :=
    new.empty _ (List.cons_ne_nil platform.dirName rest)
  have vacant {platform : Platform} {place : RealPath}
      (inside : base ++ [platform.dirName] <+: place) : made.tree.get? place = none := by
    obtain ⟨rest, rfl⟩ := inside
    simpa using free platform rest
  have clear : ¬ Meets made.tree (Site.mk base (platformsOf batches)).Taken [] names := by
    intro meets
    obtain ⟨met, ⟨platform, -, inside⟩, stands, -⟩ := new.leads.meets_found meets
    exact stands (vacant inside)
  let around : Surroundings := ⟨settings, ⟨base, platformsOf batches⟩, names, made.tree,
    made.workdir, proper, spelled, checked, new.leads, clear⟩
  have kept : around.Kept made := ⟨fun _ _ => rfl, rfl⟩
  have goes (platform : Platform) (listed : platform ∈ platformsOf batches) :
      GoesAlike settings platform world.disk made := by
    have properRoot := proper_append_one proper platform.isProper_dirName
    have root : settings.stagingRoot platform = Path.ofReal (names ++ [platform.dirName]) :=
      around.stagingRoot_eq_own platform
    constructor
    · rw [root]
      exact createDirs_after_base properRoot grounded missing makes
    · intro resets
      rw [root]
      exact removeTree_after_base properRoot grounded missing makes (short resets platform listed)
  refine runsAsAlone_of_apart (Surroundings.apart_late (confined around rfl rfl)
    distinct.owner_unique missing goes) (fun index files here => ?_) ?_ schedule
  · refine ⟨{ world with disk := made }, { world with disk := made }, Or.inr ⟨rfl, rfl⟩,
      Or.inr ⟨rfl, rfl⟩, ?_, fun _ => opens_start here⟩
    refine shares_start around fit (fun platform listed => ?_) here
    refine ⟨listed, kept, kept, fun _ _ => rfl, fun place target inside found => ?_⟩
    rw [vacant inside] at found
    cases found
  · rintro index platform value shared alone owned
      ⟨sharedAhead, aloneAhead, sharedBehind, aloneBehind, related, -⟩
    have catches {now ahead : World} (behind : Behind world.disk made now ahead) :
        settings.stagedTree platform now.disk = settings.stagedTree platform ahead.disk := by
      rcases behind with ⟨rfl, -⟩ | ⟨still, rfl⟩
      · rfl
      · funext rest
        rw [still, Settings.stagedTree_of_absent (fun base there => missing base
            ((Settings.baseAt_iff proper spelled).mp there).2),
          Settings.stagedTree_of_baseAt kept.baseAt, free]
    rw [catches sharedBehind, catches aloneBehind]
    exact (related.alike owned).stagedTree_eq

/-- The staging base is not there in the beginning. -/
theorem runsAsAlone_of_absent (grounded : world.disk.tree.Grounded)
    (absent : ∀ base, ¬ settings.BaseAt world.disk base)
    (short : settings.resetOnFirstRun = true → ∀ platform ∈ platformsOf batches,
      ∀ name ∈ names ++ [platform.dirName], name.utf8ByteSize ≤ longestName)
    (schedule : List Nat) : RunsAsAlone settings registry tools batches world schedule := by
  have root (platform : Platform) :
      settings.stagingRoot platform = Path.ofReal (names ++ [platform.dirName]) := by
    rw [Settings.stagingRoot, spelled]
    exact Path.ofReal_div_name (segments_of_proper proper) platform.isProper_dirName.toIsSegment
  rcases checked : checkText (Path.ofReal names).text with cause | ⟨⟩
  · have filled : names ≠ [] := by
      rintro rfl
      have fine : checkText (Path.ofReal []).text = .ok () := by decide
      rw [fine] at checked
      cases checked
    have nowhere (platform : Platform) : GoesNowhere settings platform world.disk world.disk := by
      have properRoot := proper_append_one proper platform.isProper_dirName
      obtain ⟨fault, unchecked⟩ : ∃ fault,
          checkText (Path.ofReal (names ++ [platform.dirName])).text = .error fault := by
        rcases whole : checkText (Path.ofReal (names ++ [platform.dirName])).text with fault | ⟨⟩
        · exact ⟨fault, rfl⟩
        · rw [checkText_front filled whole] at checked
          cases checked
      refine ⟨⟨fault, fun either known => ?_⟩, fun _ => ⟨fault, fun either _ => ?_⟩⟩
      · rw [root, createDirs_unchecked properRoot unchecked]
        exact ⟨rfl, known⟩
      · rw [root]
        exact removeTree_unchecked unchecked
    exact runsAsAlone_of_nowhere distinct (fun platform _ => nowhere platform)
      (fun base => ⟨absent base, absent base⟩) schedule
  · have missing : Blocked world.disk.tree names :=
      fun base leads => absent base ((Settings.baseAt_iff proper spelled).mpr ⟨checked, leads⟩)
    rcases makes : world.disk.createDirs (Path.ofReal names) with ⟨cause | ⟨⟩, left⟩
    · have stays (base : RealPath) : ¬ settings.BaseAt left base := by
        intro there
        rcases blocked_of_failed proper grounded makes with rfl | ⟨-, -, blocked, -⟩
        · exact absent base there
        · exact blocked base ((Settings.baseAt_iff proper spelled).mp there).2
      refine runsAsAlone_of_nowhere distinct (fun platform listed => ?_)
        (fun base => ⟨absent base, stays base⟩) schedule
      have properRoot := proper_append_one proper platform.isProper_dirName
      constructor
      · rw [root]
        exact createDirs_without_base properRoot grounded missing makes
      · intro resets
        rw [root]
        refine removeTree_without_base properRoot grounded missing makes (fun name named => ?_)
        exact short resets platform listed name (List.mem_append_left _ named)
    · exact runsAsAlone_of_made proper spelled fit distinct confined grounded checked missing makes
        (fun resets platform listed => short resets platform listed _ (by simp)) schedule

end Cases

/-- The batches of different platforms may run at the same time. Whatever the order in which their
calls are answered, each of them has the result that it has alone once it has had as many turns as
it takes alone, its staging root then holds the tree that the batch leaves there alone, and what is
joined is in the order of the batches, whichever of them has ended first. -/
theorem parallel_batches_run_alone {workdir : RealPath} {draft : Settings.Draft}
    (proper : ∀ name ∈ workdir, IsProper name) (built : draft.build workdir = .ok settings)
    (distinct : Distinct batches)
    (ordinary : ∀ files ∈ batches, ∀ file ∈ files, file.IsOrdinary)
    (below : ∀ files ∈ batches, HasEntry settings files → StaysBelow settings registry files)
    (confined : settings.ConfinesTools (platformsOf batches) tools)
    (grounded : world.disk.tree.Grounded)
    (secluded : settings.Secluded (platformsOf batches) world.disk)
    (short : settings.resetOnFirstRun = true → (∃ base, settings.BaseAt world.disk base) ∨
      ∀ platform ∈ platformsOf batches, ∀ name ∈ stepsOf (settings.stagingRoot platform).text,
        name.utf8ByteSize ≤ longestName) (schedule : List Nat) :
    let pool := (Pool.mk (tasksOf settings registry batches) world).follow tools schedule
    let turns (files : List InputFile) :=
      ((process settings registry files).calls (World.answer tools) world).length
    let alone (files : List InputFile) := (process settings registry files).inWorld tools world
    (∀ index files, batches[index]? = some files →
      pool.resultAt index =
          (if turns files ≤ schedule.count index then some (alone files).1 else none) ∧
        (turns files ≤ schedule.count index → ∀ platform, commonPlatform files = .ok platform →
          settings.stagedTree platform pool.world.disk =
            settings.stagedTree platform (alone files).2.disk)) ∧
    ((∀ index files, batches[index]? = some files → turns files ≤ schedule.count index) →
      pool.results = some (batches.map (fun files => (alone files).1)) ∧
        ∀ reason order, order.Perm (List.range batches.length) →
          joined reason order pool =
            (batches.map (fun files => (alone files).1.mapError .failed), [])) := by
  obtain ⟨names, properNames, spelled, roots⟩ :=
    stagingBase_eq proper (Settings.build_accepted built)
  have fit : Fit settings registry batches := ⟨ordinary, below⟩
  have each : RunsAsAlone settings registry tools batches world schedule := by
    by_cases there : ∃ base, settings.BaseAt world.disk base
    · obtain ⟨base, there⟩ := there
      exact runsAsAlone_of_base properNames spelled fit distinct confined secluded there schedule
    · refine runsAsAlone_of_absent properNames spelled fit distinct confined grounded
        (fun base here => there ⟨base, here⟩) (fun resets platform listed name named => ?_) schedule
      refine (short resets).resolve_left there platform listed name ?_
      rw [roots, Path.stepsOf_ofReal (segments_of_proper
        (proper_append_one properNames platform.isProper_dirName))]
      exact named
  refine ⟨each, fun enough => ?_⟩
  have tasks : ((Pool.mk (tasksOf settings registry batches) world).follow tools
      schedule).tasks.length = batches.length := by
    rw [Pool.length_follow, tasksOf, List.length_map]
  have length := tasks.trans (batches.length_map
    (fun files => ((process settings registry files).inWorld tools world).1)).symm
  have ended : ∀ index value, (batches.map (fun files =>
      ((process settings registry files).inWorld tools world).1))[index]? = some value →
      ((Pool.mk (tasksOf settings registry batches) world).follow tools schedule).resultAt index =
        some value := by
    intro index value found
    rw [List.getElem?_map] at found
    obtain ⟨files, here, rfl⟩ := Option.map_eq_some_iff.mp found
    rw [(each index files here).1, if_pos (enough index files here)]
  refine ⟨Pool.results_eq_some length ended, fun reason order every => ?_⟩
  rw [joined_values length ended (by rwa [tasks]), List.map_map]
  rfl

end Batch

section Encounters

open Batch Rehearsal

structure Encounter where
  draft : Settings.Draft
  settings : Settings
  registry : Registry
  batches : List (List InputFile)
  tree : FileTree

def meetingTools : Tools :=
  Rehearsal.tools ⟨[], [], ["node_modules"], none⟩ ⟨[], [], "<", ">", none, false⟩

theorem confines_meetingTools (settings : Settings) (platforms : List Platform) :
    settings.ConfinesTools platforms meetingTools := by
  rintro around rfl -
  exact Surroundings.toolsConfined_rehearsed (by decide) rfl (fun shared => absurd rfl shared)

namespace Encounter

variable (encounter : Encounter)

def world : World := .onDisk ⟨encounter.tree, []⟩

def pool (schedule : List Nat) : Pool (Except BuildError (List Artifact)) :=
  (Pool.mk (tasksOf encounter.settings encounter.registry encounter.batches)
    encounter.world).follow meetingTools schedule

def alone (files : List InputFile) : Except BuildError (List Artifact) :=
  ((process encounter.settings encounter.registry files).inWorld meetingTools encounter.world).1

/-- The batches are of different platforms, their files and packages have names that are in order,
the tools keep to the staging root that they are given, and no link at or below one leads out. -/
structure Fair : Prop where
  built : encounter.draft.build [] = .ok encounter.settings
  distinct : Distinct encounter.batches
  ordinary : ∀ files ∈ encounter.batches, ∀ file ∈ files, file.IsOrdinary
  confined : encounter.settings.ConfinesTools (platformsOf encounter.batches) meetingTools
  grounded : encounter.tree.Grounded
  enclosed : ∀ base, encounter.settings.BaseAt encounter.world.disk base →
    ∀ platform ∈ platformsOf encounter.batches,
      Enclosed encounter.tree ((Site.mk base (platformsOf encounter.batches)).fence platform)

/-- The first batch runs to its end, and then the second comes to a result that it has not alone. -/
def Meddles : Prop :=
  ∃ files result, encounter.batches[1]? = some files ∧
    (encounter.pool (List.replicate 80 0 ++ List.replicate 80 1)).resultAt 1 = some result ∧
    result ≠ encounter.alone files

instance : Decidable encounter.Meddles :=
  decidable_of_iff (encounter.batches[1]?.any (fun files =>
    ((encounter.pool (List.replicate 80 0 ++ List.replicate 80 1)).resultAt 1).any
      (fun result => result != encounter.alone files)) = true)
    (by simp [Meddles, Option.any_eq_true])

variable {encounter} {first second : List InputFile} {left right : Platform}

theorem Fair.of_two (built : encounter.draft.build [] = .ok encounter.settings)
    (two : encounter.batches = [first, second]) (leftCommon : commonPlatform first = .ok left)
    (rightCommon : commonPlatform second = .ok right) (differ : left ≠ right)
    (ordinary : ∀ file ∈ first ++ second, file.IsOrdinary) (grounded : encounter.tree.Grounded)
    (unlinked : ∀ place target, encounter.tree.get? place = some (.link target) →
      left.dirName ∉ place ∧ right.dirName ∉ place) : encounter.Fair where
  built := built
  distinct := by
    rw [two, Distinct, List.pairwise_pair]
    intro platform common other
    exact differ (Except.ok.inj ((leftCommon.symm.trans common).trans
      (other.symm.trans rightCommon)))
  ordinary := by
    intro files listed file member
    rw [two, List.mem_pair] at listed
    rcases listed with rfl | rfl
    · exact ordinary file (List.mem_append_left _ member)
    · exact ordinary file (List.mem_append_right _ member)
  confined := confines_meetingTools _ _
  grounded := grounded
  enclosed := by
    intro base _ platform listed place target inside found
    have named : platform.dirName ∈ place := by
      obtain ⟨rest, rfl⟩ := inside
      simp [Site.fence, Site.root]
    have mine : platform = left ∨ platform = right := by
      simpa [two, platformsOf, leftCommon, rightCommon, Except.toOption] using listed
    obtain ⟨notLeft, notRight⟩ := unlinked place target found
    rcases mine with rfl | rfl
    · exact absurd named notLeft
    · exact absurd named notRight

end Encounter

def web : Platform := ⟨"web"⟩

def ios : Platform := ⟨"ios"⟩

def moduleOf (name : String) (platform : Platform) : InputFile :=
  .ofSource (.package name) "module.js" "m()" platform

def scriptOf (platform : Platform) : InputFile := .ofSource .application "util.js" "u()" platform

theorem isOrdinary_moduleOf {name : String} {platform : Platform}
    (valid : (PackageId.package name).Valid)
    (proper : IsProper (PackageId.package name).stagingName.text) :
    (moduleOf name platform).IsOrdinary where
  valid := valid
  notHere := proper.notHere
  notUp := proper.notUp
  components := by
    have components : ∀ part ∈ namesOf "module.js", IsProper part := by decide
    exact components

theorem isOrdinary_scriptOf (platform : Platform) : (scriptOf platform).IsOrdinary where
  valid := isOrdinary_appModule.valid
  notHere := isOrdinary_appModule.notHere
  notUp := isOrdinary_appModule.notUp
  components := by
    have components : ∀ part ∈ namesOf "util.js", IsProper part := by decide
    exact components

theorem valid_base : (PackageId.package "base").Valid := by
  rintro name ⟨⟩
  rfl

theorem valid_user : (PackageId.package "user").Valid := by
  rintro name ⟨⟩
  rfl

theorem isOrdinary_modules : ∀ file ∈ [moduleOf "base" web] ++ [moduleOf "user" ios],
    file.IsOrdinary := by
  simpa using
    ⟨isOrdinary_moduleOf valid_base (by decide), isOrdinary_moduleOf valid_user (by decide)⟩

theorem isOrdinary_scripts {first second : Platform} :
    ∀ file ∈ [scriptOf first] ++ [scriptOf second], file.IsOrdinary := by
  intro file member
  rcases List.mem_pair.mp member with rfl | rfl
  · exact isOrdinary_scriptOf first
  · exact isOrdinary_scriptOf second

def placeholder : InputFile :=
  .ofSource (.package "rocket:module") "s/b/web/packages/base/module.js" "" ios

theorem isOrdinary_placeholder : placeholder.IsOrdinary where
  valid := by
    rintro name ⟨⟩
    rfl
  notHere := by decide
  notUp := by decide
  components := by decide

theorem linkless_emptyTree (place : RealPath) (target : String) :
    emptyTree.get? place ≠ some (.link target) := by
  cases place <;> simp [emptyTree, get?, find]

def resettingDraft : Settings.Draft := { plainDraft with resetOnFirstRun := true }

def resettingSettings : Settings := { plainSettings with resetOnFirstRun := true }

theorem build_resettingDraft : resettingDraft.build [] = .ok resettingSettings := rfl

def peaceful : Encounter where
  draft := resettingDraft
  settings := resettingSettings
  registry := .empty
  batches := [[moduleOf "base" web], [scriptOf ios]]
  tree := ⟨[(["b"], .directory)]⟩

theorem baseAt_peaceful : peaceful.settings.BaseAt peaceful.world.disk ["b"] := rfl

theorem linkless_peaceful (place : RealPath) (target : String) :
    peaceful.tree.get? place ≠ some (.link target) := by
  intro found
  have filled : place ≠ [] := by
    rintro rfl
    cases found
  simpa [peaceful] using mem_nodes filled found

theorem isOrdinary_peaceful : ∀ file ∈ [moduleOf "base" web] ++ [scriptOf ios],
    file.IsOrdinary := by
  intro file member
  rcases List.mem_pair.mp member with rfl | rfl
  · exact isOrdinary_moduleOf valid_base (by decide)
  · exact isOrdinary_scriptOf ios

theorem fair_peaceful : peaceful.Fair :=
  .of_two build_resettingDraft rfl rfl rfl (by decide) isOrdinary_peaceful
    (grounded_of_nodes (by simp [peaceful, get?]))
    (fun place target found => absurd found (linkless_peaceful place target))

theorem secluded_peaceful :
    peaceful.settings.Secluded (platformsOf peaceful.batches) peaceful.world.disk where
  clear := by
    intro base here meets
    cases here
    have proper : ∀ name ∈ ["b"], IsProper name := by decide
    have leads := ((Settings.baseAt_iff proper rfl).mp baseAt_peaceful).2
    obtain ⟨met, ⟨owner, -, inside⟩, stands, -⟩ := leads.meets_found meets
    have longer := inside.length_le
    obtain ⟨node, found⟩ := Option.ne_none_iff_exists'.mp stands
    have filled : met ≠ [] := by
      rintro rfl
      simp [Site.root] at longer
    have same : met = ["b"] := by
      have listed := mem_nodes filled found
      simp only [peaceful, Encounter.world, World.onDisk, List.mem_singleton, Prod.mk.injEq]
        at listed
      exact listed.1
    simp [same, Site.root] at longer
  enclosed := fair_peaceful.enclosed

theorem staysBelow_peaceful : ∀ files ∈ peaceful.batches, HasEntry peaceful.settings files →
    StaysBelow peaceful.settings peaceful.registry files := by
  intro files listed _
  constructor
  · intro file member has dependency declared
    have none : Staging.dependenciesOf peaceful.registry file.package = KeyMap.empty := by
      unfold Staging.dependenciesOf
      cases file.package.name <;> rfl
    rw [none] at declared
    cases declared
  · rintro -
    decide

/-- The calls of two batches are answered in turn, and both have their own results, in order also
where the second batch has ended first. -/
theorem peaceful_batches_run_alone :
    ((peaceful.pool (List.replicate 60 [1, 0]).flatten).results =
        some (peaceful.batches.map peaceful.alone) ∧
      joined "" [1, 0] (peaceful.pool (List.replicate 60 [1, 0]).flatten) =
        (peaceful.batches.map (fun files => (peaceful.alone files).mapError .failed), [])) ∧
    (peaceful.batches.map peaceful.alone).all Except.isOk = true := by
  have enough : ∀ index files, peaceful.batches[index]? = some files →
      ((process peaceful.settings peaceful.registry files).calls (World.answer meetingTools)
        peaceful.world).length ≤ (List.replicate 60 [1, 0]).flatten.count index := by
    intro index files here
    rcases index with _ | _ | _
    · cases here
      decide +kernel
    · cases here
      decide +kernel
    · cases here
  have own := (parallel_batches_run_alone (by simp) fair_peaceful.built fair_peaceful.distinct
    fair_peaceful.ordinary staysBelow_peaceful fair_peaceful.confined fair_peaceful.grounded
    secluded_peaceful (fun _ => Or.inl ⟨["b"], baseAt_peaceful⟩) _).2 enough
  exact ⟨⟨own.1, own.2 "" [1, 0] (by decide)⟩, by decide +kernel⟩

/-- A dependency of the second batch has a name that leads to what the first one stages. -/
def crossing : Encounter where
  draft := plainDraft
  settings := plainSettings
  registry := ⟨KeyMap.empty, KeyMap.ofList
    [("user", KeyMap.ofList [("../../web/packages/base", "1.0.0")])]⟩
  batches := [[moduleOf "base" web], [moduleOf "user" ios]]
  tree := emptyTree

theorem fair_crossing : crossing.Fair :=
  .of_two build_plainDraft rfl rfl rfl (by decide) isOrdinary_modules grounded_emptyTree
    (fun place target found => absurd found (linkless_emptyTree place target))

/-- The shared chunk of the second batch is looked up where the first one stages a source. -/
def borrowing : Encounter where
  draft := { plainDraft with sharedModulesFile := some "/b/web/packages/base/module.js" }
  settings := { plainSettings with sharedModulesFile := "/b/web/packages/base/module.js" }
  registry := .empty
  batches := [[moduleOf "base" web], [moduleOf "user" ios, placeholder]]
  tree := emptyTree

theorem fair_borrowing : borrowing.Fair := by
  refine .of_two rfl rfl rfl rfl (by decide) ?_ grounded_emptyTree
    (fun place target found => absurd found (linkless_emptyTree place target))
  intro file member
  have listed : file ∈ ([moduleOf "base" web] ++ [moduleOf "user" ios]) ++ [placeholder] := member
  rcases List.mem_append.mp listed with module | shared
  · exact isOrdinary_modules file module
  · rw [List.mem_singleton.mp shared]
    exact isOrdinary_placeholder

def overlongPlatform : Platform := ⟨String.ofList (List.replicate 256 'x')⟩

/-- No directory can have the name of the second staging root, and the staging base is not there. -/
def overlong : Encounter where
  draft := resettingDraft
  settings := resettingSettings
  registry := .empty
  batches := [[scriptOf web], [scriptOf overlongPlatform]]
  tree := emptyTree

theorem fair_overlong : overlong.Fair :=
  .of_two build_resettingDraft rfl rfl rfl (by decide +kernel) isOrdinary_scripts
    grounded_emptyTree (fun place target found => absurd found (linkless_emptyTree place target))

/-- The way to the staging base goes through the first staging root and out of it again. -/
def roundabout : Encounter where
  draft := { resettingDraft with stagingBase := some ⟨"/w/via/b"⟩ }
  settings := { resettingSettings with stagingBase := Path.absolutize [] ⟨"/w/via/b"⟩ }
  registry := .empty
  batches := [[scriptOf web], [scriptOf ios]]
  tree := ⟨[(["w"], .directory), (["w", "b"], .directory), (["w", "b", "web"], .directory),
    (["w", "via"], .link "/w/b/web/../..")]⟩

theorem fair_roundabout : roundabout.Fair := by
  refine .of_two rfl rfl rfl rfl (by decide) isOrdinary_scripts
    (grounded_of_nodes (by simp [roundabout, get?, find])) ?_
  intro place target found
  have filled : place ≠ [] := by
    rintro rfl
    cases found
  have listed := mem_nodes filled found
  simp only [roundabout, List.mem_cons, Prod.mk.injEq, reduceCtorEq, and_false, false_or,
    List.not_mem_nil, or_false] at listed
  rw [listed.1]
  decide

/-- A fair encounter goes wrong where a name that is looked up leads to another staging root, where
such a root is on the way to the staging base, or where the name of a root is too long. -/
theorem fair_batches_meddle : (crossing.Fair ∧ crossing.Meddles) ∧
    (borrowing.Fair ∧ borrowing.Meddles) ∧ (roundabout.Fair ∧ roundabout.Meddles) ∧
    (overlong.Fair ∧ overlong.Meddles) := by
  refine ⟨⟨fair_crossing, ?_⟩, ⟨fair_borrowing, ?_⟩, ⟨fair_roundabout, ?_⟩, fair_overlong, ?_⟩
  all_goals decide +kernel

end Encounters

end PlatformBundle
