import PlatformBundle.Batch
import PlatformBundle.Proofs.PackageDirectories
import PlatformBundle.Proofs.PlatformRoots
import PlatformBundle.Proofs.SpelledPlaces
import PlatformBundle.Proofs.StagedManifests
import PlatformBundle.Proofs.StagedSources
/-!
Where the chunks of a bundle are, as their paths spell it. Each entry's chunk has a place of its own
below the output directory: a batch that was staged has a file at each of these places below the
directory of the sources, and no file is above another. The shared chunk is where the settings say,
and keeps apart from the chunks of the entries only as far as they say so.
-/

namespace PlatformBundle

open FileTree Disk

namespace Path

open Text

theorem components_join {base : Path} (isOpen : Closure.IsOpen base) {text : String}
    (relative : Closure.IsRelative text) :
    (base / text).components = base.components ++ bodyOf text := by
  have filled : base.text.toList ≠ [] := by
    intro empty
    have bare := isOpen.1
    rw [← Bool.not_eq_true, String.isEmpty_iff, ← String.toList_inj, empty] at bare
    exact bare rfl
  have joined : (base / text).text.toList = base.text.toList ++ '/' :: text.toList := by
    rw [Closure.div_text isOpen relative]
    simp
  have absolute : (base / text).isAbsolute = base.isAbsolute := by
    obtain ⟨c, chars, spelled⟩ := List.exists_cons_of_ne_nil filled
    simp only [isAbsolute, joined, spelled, List.cons_append, List.head?_cons]
  obtain ⟨first, rest, cut⟩ := List.exists_cons_of_ne_nil (pieces_ne_nil '/' base.text.toList)
  simp only [components, joined, pieces_join, cut, List.cons_append, absolute, bodyOf,
    List.filterMap_append, List.append_assoc]

theorem resolveFrom_within {inner out : RealPath} {components : List Component}
    (stays : within inner components = some out) (top : RealPath) :
    resolveFrom (top ++ inner) components = top ++ out := by
  induction components generalizing inner with
  | nil => rw [Option.some.inj stays]; rfl
  | cons component rest ih =>
      cases component with
      | root => cases stays
      | here => exact ih stays
      | up =>
          rw [within] at stays
          split at stays
          · cases stays
          · rename_i filled
            rw [resolveFrom, List.dropLast_append_of_ne_nil filled]
            exact ih stays
      | name text =>
          rw [resolveFrom, List.append_assoc]
          exact ih stays

theorem spelled_join {base : Path} (isOpen : Closure.IsOpen base) {text : String}
    (relative : Closure.IsRelative text) {inner : RealPath}
    (stays : within [] (bodyOf text) = some inner) (workdir : RealPath) :
    (base / text).spelled workdir = base.spelled workdir ++ inner := by
  have resolved := resolveFrom_within stays (base.spelled workdir)
  rw [List.append_nil] at resolved
  rw [spelled, components_join isOpen relative, resolveFrom_append]
  exact resolved

theorem within_names (inner names : RealPath) :
    within inner (names.map .name) = some (inner ++ names) := by
  induction names generalizing inner with
  | nil => rw [List.append_nil]; rfl
  | cons name rest ih => rw [List.map_cons, within, ih, List.append_assoc]; rfl

theorem bodyOf_of_proper {text : String} (proper : ∀ name ∈ namesOf text, IsProper name) :
    bodyOf text = (namesOf text).map .name := by
  rw [namesOf, List.map_map, bodyOf, ← List.filterMap_eq_map]
  refine List.filterMap_congr (fun piece listed => ?_)
  have own := proper (String.ofList piece) (List.mem_map.mpr ⟨piece, listed, rfl⟩)
  simpa using bodyComponent_of_proper own

theorem isRelative_of_proper {text : String} (proper : ∀ name ∈ namesOf text, IsProper name) :
    Closure.IsRelative text := by
  unfold Closure.IsRelative
  rw [beq_eq_false_iff_ne]
  intro first
  obtain ⟨rest, spelled⟩ := List.head?_eq_some_iff.mp first
  have empty := proper "" (by rw [namesOf, spelled, pieces, if_pos rfl]; simp)
  exact empty.filled rfl

theorem within_of_proper {name : String} (proper : IsProper name) :
    within [] (bodyOf name) = some [name] := by
  rw [bodyOf, pieces_of_not_mem proper.whole, List.filterMap_cons, bodyComponent_of_proper proper]
  rfl

/-- Neither of two paths is the other or lies above it, once `..` is resolved. -/
def Apart (workdir : RealPath) (first second : Path) : Prop :=
  ¬ first.spelled workdir <+: second.spelled workdir ∧
    ¬ second.spelled workdir <+: first.spelled workdir

def IsBelow (workdir : RealPath) (top path : Path) : Prop :=
  ∃ inner, inner ≠ [] ∧ path.spelled workdir = top.spelled workdir ++ inner

theorem apart_iff {workdir top first second : RealPath} {left right : Path}
    (here : left.spelled workdir = top ++ first) (there : right.spelled workdir = top ++ second) :
    Apart workdir left right ↔ ¬ first <+: second ∧ ¬ second <+: first := by
  rw [Apart, here, there, List.prefix_append_right_inj, List.prefix_append_right_inj]

end Path

def Disk.HoldsFile (tree : FileTree) (names : List String) : Prop :=
  ∃ spot content executable,
    Walks tree true linkBudget [] names (.present spot (.file content executable))

namespace Disk.HoldsFile

variable {before middle after tree : FileTree} {names more : List String}

theorem grow (holds : HoldsFile before names) (grown : Grown (fun _ => True) before after) :
    HoldsFile after names := by
  obtain ⟨spot, content, executable, walks⟩ := holds
  exact ⟨spot, content, executable, walks.grow grown.toGrows (Or.inl trivial)⟩

-- The file that is written may be the one that the names lead to, under another name.
theorem written {content : ByteArray} {spot : RealPath} (holds : HoldsFile before names)
    (wrote : Written before after more content spot) : HoldsFile after names := by
  obtain ⟨place, old, executable, walks⟩ := holds
  by_cases here : place = spot
  · obtain ⟨now, stands⟩ := wrote.stands
    have filled : after.get? spot = some (.file content now) :=
      stands.stands wrote.grown.grounded after.get?_root
    refine ⟨place, content, now, walks.fill wrote.grown.toGrows (here ▸ filled) ?_⟩
    rintro other ⟨⟩
  · exact ⟨place, old, executable, walks.grow wrote.grown.toGrows (Or.inl here)⟩

theorem eq_of_above (first : HoldsFile tree names) (second : HoldsFile tree more)
    (inside : names <+: more) : names = more := by
  obtain ⟨rest, rfl⟩ := inside
  by_cases whole : rest = []
  · rw [whole, List.append_nil]
  · obtain ⟨_, _, _, walks⟩ := second
    obtain ⟨middle, leads⟩ := walks.front rfl whole
    obtain ⟨_, _, _, file⟩ := first
    cases file.unique leads

end Disk.HoldsFile

namespace Staging

variable {disk left : Disk} {settings : Settings} {registry : Registry} {names : List String}

theorem stageFile_holds {file : Classified} {progress after : Progress}
    (proper : ∀ name ∈ names, IsProper name) (ordinary : file.IsOrdinary)
    (grounded : disk.tree.Grounded)
    (staged : (stageFile settings (Path.ofReal names) progress file).onDisk disk =
      (.ok after, left)) :
    left.tree.Grounded ∧ (∀ more, HoldsFile disk.tree more → HoldsFile left.tree more) ∧
      (file.kind = .entry →
        HoldsFile left.tree (names ++ packagesDir :: namesOf file.stagedPath)) := by
  obtain ⟨-, made, make, rest⟩ := stageFile_ok staged
  have grown := makeDir_package (fun _ => True) proper ordinary.staging grounded make
  split at rest
  · have path := sourcePath_eq (segments_of_proper proper) ordinary
    rw [sourcePath] at path
    rw [path] at rest
    obtain ⟨-, dirs, spot, grownDirs, written⟩ := write_ok
      (proper_below proper isProper_packagesDir ordinary.proper)
      (two_le_length_below (namesOf_ne_nil file.stagedPath)) grown.grounded rest
    obtain ⟨executable, stands⟩ := written.stands
    refine ⟨written.grown.grounded, fun more holds => ?_, fun _ => ⟨_, _, _, stands⟩⟩
    exact ((holds.grow grown).grow (grownDirs _)).written written
  · rename_i other
    subst rest
    exact ⟨grown.grounded, fun more holds => holds.grow grown, fun entry => absurd entry other⟩

-- The induction carries that what holds a file goes on to hold one.
theorem stageFiles_hold {files : List Classified} {progress after : Progress}
    (proper : ∀ name ∈ names, IsProper name) (ordinary : ∀ file ∈ files, file.IsOrdinary)
    (grounded : disk.tree.Grounded)
    (staged : (stageFiles settings (Path.ofReal names) progress files).onDisk disk =
      (.ok after, left)) :
    (∀ more, HoldsFile disk.tree more → HoldsFile left.tree more) ∧
      ∀ file ∈ files, file.kind = .entry →
        HoldsFile left.tree (names ++ packagesDir :: namesOf file.stagedPath) := by
  induction files generalizing progress disk with
  | nil =>
      obtain ⟨-, rfl⟩ := Work.onDisk_pure_ok disk staged
      exact ⟨fun _ holds => holds, by simp⟩
  | cons file rest ih =>
      obtain ⟨middle, first, others⟩ := stageFiles_cons_ok staged
      obtain ⟨groundedMiddle, kept, own⟩ :=
        stageFile_holds proper (ordinary file List.mem_cons_self) grounded first
      obtain ⟨keptLater, later⟩ := ih
        (fun other listed => ordinary other (List.mem_cons_of_mem _ listed)) groundedMiddle others
      refine ⟨fun more holds => keptLater more (kept more holds), fun other listed entry => ?_⟩
      rcases List.mem_cons.mp listed with rfl | listed
      · exact keptLater _ (own entry)
      · exact later other listed entry

theorem stage_prefix_free {files : List Classified} {config : BundleConfig} {batch : StagedBatch}
    (proper : ∀ name ∈ names, IsProper name) (ordinary : ∀ file ∈ files, file.IsOrdinary)
    (grounded : disk.tree.Grounded)
    (staged : (stage settings registry (Path.ofReal names) files config).onDisk disk =
      (.ok batch, left)) {first second : Classified} (here : first ∈ files)
    (there : second ∈ files) (firstEntry : first.kind = .entry) (secondEntry : second.kind = .entry)
    (inside : namesOf first.stagedPath <+: namesOf second.stagedPath) :
    first.stagedPath = second.stagedPath := by
  obtain ⟨progress, sources, described, staging, -⟩ := stage_ok staged
  obtain ⟨-, hold⟩ := stageFiles_hold proper ordinary grounded staging
  have whole : names ++ packagesDir :: namesOf first.stagedPath =
      names ++ packagesDir :: namesOf second.stagedPath :=
    (hold first here firstEntry).eq_of_above (hold second there secondEntry)
      ((List.prefix_append_right_inj _).mpr (List.cons_prefix_cons.mpr ⟨rfl, inside⟩))
  exact namesOf_injective (List.cons.inj (List.append_cancel_left whole)).2

open Batch

def placeOf (file : InputFile) : RealPath :=
  file.package.stagingName.text :: namesOf file.fileName

theorem place_not_above {root : Path} {files : List InputFile} {config : BundleConfig}
    {batch : StagedBatch} (spelled : root = Path.ofReal names)
    (proper : ∀ name ∈ names, IsProper name) (ordinary : ∀ file ∈ files, file.IsOrdinary)
    (grounded : disk.tree.Grounded)
    (staged : (stage settings registry root (files.map (classify settings)) config).onDisk disk =
      (.ok batch, left)) {first second : InputFile}
    (here : first ∈ files ∧ kindOf settings first = .entry)
    (there : second ∈ files ∧ kindOf settings second = .entry)
    (differ : (first.package, first.fileName) ≠ (second.package, second.fileName)) :
    ¬ placeOf first <+: placeOf second := by
  intro inside
  have classified {file : InputFile} (listed : file ∈ files) :=
    isOrdinary_classify settings (ordinary file listed)
  rw [spelled] at staged
  have same : (classify settings first).stagedPath = (classify settings second).stagedPath := by
    refine stage_prefix_free proper ?_ grounded staged (List.mem_map_of_mem here.1)
      (List.mem_map_of_mem there.1) here.2 there.2 ?_
    · intro file member
      obtain ⟨input, given, rfl⟩ := List.mem_map.mp member
      exact classified given
    · rw [(classified here.1).staged, (classified there.1).staged]
      exact inside
  obtain ⟨package, fileName⟩ := (stagedPath_eq_iff settings (ordinary first here.1).valid
    (ordinary second there.1).valid).mp same
  exact differ (Prod.ext package fileName)

theorem chunk_spelled {file : InputFile} (ordinary : file.IsOrdinary) (settings : Settings)
    {output : Path} (isOpen : Closure.IsOpen output) (workdir : RealPath) :
    (output / (classify settings file).stagedPath).spelled workdir =
      output.spelled workdir ++ placeOf file := by
  have classified := isOrdinary_classify settings ordinary
  have stays : Path.within [] (Path.bodyOf (classify settings file).stagedPath) =
      some (placeOf file) := by
    rw [Path.bodyOf_of_proper classified.proper, Path.within_names, classified.staged]
    rfl
  exact Path.spelled_join isOpen (Path.isRelative_of_proper classified.proper) stays workdir

theorem entryChunk_spelled {root : Path} {platform : Platform} {files : List Classified}
    {batch : StagedBatch}
    (staged : (stage settings registry root files (startConfig settings platform root)).onDisk
      disk = (.ok batch, left)) {file : InputFile} (ordinary : file.IsOrdinary)
    (workdir : RealPath) :
    (batch.config.entryChunkPath (classify settings file).stagedPath).spelled workdir =
      (root / builtDir).spelled workdir ++ placeOf file := by
  have chunkIs : batch.config.entryChunkPath (classify settings file).stagedPath =
      root / builtDir / (classify settings file).stagedPath :=
    congrArg (· / (classify settings file).stagedPath) (stage_places staged).1
  rw [chunkIs]
  exact chunk_spelled ordinary settings (Closure.isOpen_div isProper_builtDir.toIsSegment) workdir

theorem sharedChunk_spelled {root : Path} {platform : Platform} {files : List Classified}
    {batch : StagedBatch}
    (staged : (stage settings registry root files (startConfig settings platform root)).onDisk
      disk = (.ok batch, left)) (relative : Closure.IsRelative settings.sharedModulesFile)
    {inner : RealPath}
    (stays : Path.within [] (Path.bodyOf settings.sharedModulesFile) = some inner)
    (workdir : RealPath) :
    batch.config.sharedChunkPath.spelled workdir =
      (root / builtDir).spelled workdir ++ inner := by
  have sharedIs : batch.config.sharedChunkPath = root / builtDir / settings.sharedModulesFile := by
    obtain ⟨outputPath, sharedChunk⟩ := stage_places staged
    unfold BundleConfig.sharedChunkPath
    rw [outputPath, sharedChunk]
    rfl
  rw [sharedIs]
  exact Path.spelled_join (Closure.isOpen_div isProper_builtDir.toIsSegment) relative stays workdir

/-- The chunks of the entries of a staged batch have places of their own below the output directory:
none is at or above the place of another one. The shared chunk is where its name leads from there,
as long as it does not lead out, and whether it keeps apart from an entry's chunk can be read off
the names; a plain name does so unless the package of the entry has it for its directory. -/
theorem chunks_apart {workdir : RealPath} {draft : Settings.Draft} {platform : Platform}
    {files : List InputFile} {batch : StagedBatch} (proper : ∀ name ∈ workdir, IsProper name)
    (built : draft.build workdir = .ok settings) (ordinary : ∀ file ∈ files, file.IsOrdinary)
    (distinct : (files.map (fun file => (file.package, file.fileName))).Nodup)
    (grounded : disk.tree.Grounded)
    (staged : (stage settings registry (settings.stagingRoot platform)
      (files.map (classify settings)) (startConfig settings platform
        (settings.stagingRoot platform))).onDisk disk = (.ok batch, left)) :
    let output := settings.stagingRoot platform / builtDir
    let entries := files.filter (fun file => kindOf settings file = .entry)
    let chunk (file : InputFile) := batch.config.entryChunkPath (classify settings file).stagedPath
    let shared := batch.config.sharedChunkPath
    entries.Pairwise (fun first second => Path.Apart workdir (chunk first) (chunk second)) ∧
    (∀ file ∈ entries, Path.IsBelow workdir output (chunk file)) ∧
    (∀ inner, Closure.IsRelative settings.sharedModulesFile →
      Path.within [] (Path.bodyOf settings.sharedModulesFile) = some inner →
        shared.spelled workdir = output.spelled workdir ++ inner ∧
        ∀ file ∈ entries, (Path.Apart workdir shared (chunk file) ↔
          ¬ inner <+: placeOf file ∧ ¬ placeOf file <+: inner)) ∧
    (IsProper settings.sharedModulesFile →
      Path.IsBelow workdir output shared ∧
      ∀ file ∈ entries, (Path.Apart workdir shared (chunk file) ↔
        file.package.stagingName.text ≠ settings.sharedModulesFile)) := by
  intro output entries chunk shared
  have listed {file : InputFile} (member : file ∈ entries) :
      file ∈ files ∧ kindOf settings file = .entry := by simpa [entries] using member
  have place {file : InputFile} (member : file ∈ entries) :
      (chunk file).spelled workdir = output.spelled workdir ++ placeOf file :=
    entryChunk_spelled staged (ordinary file (listed member).1) workdir
  have sharedApart {inner : RealPath} (relative : Closure.IsRelative settings.sharedModulesFile)
      (stays : Path.within [] (Path.bodyOf settings.sharedModulesFile) = some inner) :
      ∀ file ∈ entries, (Path.Apart workdir shared (chunk file) ↔
        ¬ inner <+: placeOf file ∧ ¬ placeOf file <+: inner) :=
    fun file member =>
      Path.apart_iff (sharedChunk_spelled staged relative stays workdir) (place member)
  refine ⟨?_, fun file member => ⟨placeOf file, by simp [placeOf], place member⟩,
    fun inner relative stays =>
      ⟨sharedChunk_spelled staged relative stays workdir, sharedApart relative stays⟩, ?_⟩
  · obtain ⟨names, properRoot, root⟩ :=
      stagingRoot_eq proper (Settings.build_accepted built) platform
    have differs : entries.Pairwise (fun first second =>
        (first.package, first.fileName) ≠ (second.package, second.fileName)) :=
      (List.pairwise_map.mp distinct).filter _
    refine differs.imp_of_mem (fun {first second} here there differ => ?_)
    rw [Path.apart_iff (place here) (place there)]
    exact ⟨place_not_above root properRoot ordinary grounded staged (listed here) (listed there)
        differ,
      place_not_above root properRoot ordinary grounded staged (listed there) (listed here)
        differ.symm⟩
  · intro plain
    have relative := Closure.isRelative_of_isSegment plain.toIsSegment
    have stays := Path.within_of_proper plain
    have below := sharedChunk_spelled staged relative stays workdir
    refine ⟨⟨_, by simp, below⟩, fun file member => ?_⟩
    rw [sharedApart relative stays file member, placeOf, List.cons_prefix_cons,
      List.cons_prefix_cons]
    simp [namesOf_ne_nil file.fileName, eq_comm]

section Sharing

/-- Two entries of one name and a shared chunk that is called otherwise than their directories. -/
theorem module_chunks_apart : ∃ batch left,
    (stageBrowser plainSettings [widgetModule, appModule]).onDisk ⟨emptyTree, []⟩ =
      (.ok batch, left) ∧
    Path.Apart [] (batch.config.entryChunkPath (classify plainSettings widgetModule).stagedPath)
      (batch.config.entryChunkPath (classify plainSettings appModule).stagedPath) ∧
    Path.Apart [] batch.config.sharedChunkPath
      (batch.config.entryChunkPath (classify plainSettings widgetModule).stagedPath) := by
  obtain ⟨batch, left, staged⟩ := modules_staged
  obtain ⟨pairwise, -, -, shared⟩ := chunks_apart (by simp) build_plainDraft
    isOrderly_modules.ordinary isOrderly_modules.distinct grounded_emptyTree staged
  have entries : [widgetModule, appModule].filter
      (fun file => kindOf plainSettings file = .entry) = [widgetModule, appModule] := by
    decide
  rw [entries] at pairwise shared
  have plain : IsProper plainSettings.sharedModulesFile := by decide
  have own : widgetModule.package.stagingName.text ≠ plainSettings.sharedModulesFile := by decide
  exact ⟨batch, left, staged, List.rel_of_pairwise_cons pairwise (List.mem_singleton_self _),
    ((shared plain).2 widgetModule List.mem_cons_self).mpr own⟩

def sharedNamed : InputFile := .ofSource (.package "shared-modules.js") "module.js" "s()" browser

def sharingDraft (name : String) : Settings.Draft :=
  { plainDraft with sharedModulesFile := some name }

def sharingSettings (name : String) : Settings := { plainSettings with sharedModulesFile := name }

theorem isOrdinary_sharedNamed : sharedNamed.IsOrdinary where
  valid := by
    rintro name ⟨⟩
    rfl
  notHere := by decide
  notUp := by decide
  components := by decide

/-- Where the settings and the names of packages let the shared chunk come. -/
theorem shared_chunk_collides :
    ((sharingDraft "shared-modules.js").build [] = .ok (sharingSettings "shared-modules.js") ∧
      sharedNamed.IsOrdinary ∧
      ∃ batch left, (stageBrowser (sharingSettings "shared-modules.js") [sharedNamed]).onDisk
          ⟨emptyTree, []⟩ = (.ok batch, left) ∧
        batch.config.entry.contains "shared-modules.js/module.js" = true ∧
        batch.config.sharedChunkPath.spelled [] <+:
          (batch.config.entryChunkPath "shared-modules.js/module.js").spelled []) ∧
    ((sharingDraft "acme_widgets/module.js").build [] =
        .ok (sharingSettings "acme_widgets/module.js") ∧
      widgetModule.IsOrdinary ∧
      ∃ batch left, (stageBrowser (sharingSettings "acme_widgets/module.js") [widgetModule]).onDisk
          ⟨emptyTree, []⟩ = (.ok batch, left) ∧
        batch.config.entry.contains "acme_widgets/module.js" = true ∧
        batch.config.sharedChunkPath = batch.config.entryChunkPath "acme_widgets/module.js") ∧
    ((sharingDraft "../x").build [] = .ok (sharingSettings "../x") ∧
      ∃ batch left, (stageBrowser (sharingSettings "../x") [appModule]).onDisk
          ⟨emptyTree, []⟩ = (.ok batch, left) ∧
        ¬ Path.IsBelow [] (plainRoot / builtDir) batch.config.sharedChunkPath) := by
  refine ⟨⟨rfl, isOrdinary_sharedNamed, ?_⟩, ⟨rfl, isOrdinary_widgetModule, ?_⟩, rfl, ?_⟩
  · obtain ⟨batch, left, staged⟩ : ∃ batch left,
        (stageBrowser (sharingSettings "shared-modules.js") [sharedNamed]).onDisk ⟨emptyTree, []⟩ =
          (.ok batch, left) := Work.ok_of_isOk (by decide +kernel)
    refine ⟨batch, left, staged, ?_⟩
    rw [(stage_described staged).2.2.2]
    decide +kernel
  · obtain ⟨batch, left, staged⟩ : ∃ batch left,
        (stageBrowser (sharingSettings "acme_widgets/module.js") [widgetModule]).onDisk
          ⟨emptyTree, []⟩ = (.ok batch, left) := Work.ok_of_isOk (by decide +kernel)
    refine ⟨batch, left, staged, ?_⟩
    rw [(stage_described staged).2.2.2]
    decide +kernel
  · obtain ⟨batch, left, staged⟩ : ∃ batch left,
        (stageBrowser (sharingSettings "../x") [appModule]).onDisk ⟨emptyTree, []⟩ =
          (.ok batch, left) := Work.ok_of_isOk (by decide +kernel)
    refine ⟨batch, left, staged, ?_⟩
    rintro ⟨inner, filled, below⟩
    have outside : ¬ (plainRoot / builtDir).spelled [] <+:
        batch.config.sharedChunkPath.spelled [] := by
      rw [(stage_described staged).2.2.2]
      decide +kernel
    exact outside (below ▸ List.prefix_append _ _)

end Sharing

end Staging

end PlatformBundle
