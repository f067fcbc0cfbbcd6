import PlatformBundle.Proofs.SpelledPlaces
import PlatformBundle.Proofs.StagedBatches
import PlatformBundle.Proofs.TaskTerms
import PlatformBundle.Proofs.WrittenFiles
/-!
Where staging writes, whatever the files of a batch are called. It writes the manifest at the top,
the manifests of the packages and the sources of the entries, and no other file is new or changed
after it. A name that does not climb out of the directory of all packages spells the place of its
source, and one that does not climb out of the directory of its own package keeps the source in it.
-/

namespace PlatformBundle

open FileTree Disk

namespace Staging

section Places

variable {disk : Disk} {names : List String} {top place : RealPath} {content : ByteArray}
  {executable : Bool} {stagingName : String}

theorem source_within (segments : ∀ name ∈ names, IsSegment name)
    (proper : IsProper stagingName) (cleared : Cleared disk.tree names top) {fileName : String}
    (located : disk.locate true (Path.ofReal names / packagesDir /
      (stagingName ++ "/" ++ fileName)) = .ok (.present place (.file content executable))) :
    (∀ inner, Path.within [stagingName] (Path.bodyOf fileName) = some inner →
      place = top ++ packagesDir :: inner) ∧
    (∀ inner, Path.within [] (Path.bodyOf fileName) = some inner →
      inner ≠ [] ∧ place = top ++ packagesDir :: stagingName :: inner) := by
  have inside := segments_append_one segments isProper_packagesDir.toIsSegment
  have path := Path.ofReal_div_name segments isProper_packagesDir.toIsSegment
  have absolute : (Path.ofReal names / packagesDir / (stagingName ++ "/" ++ fileName)).isAbsolute =
      true := Path.isAbsolute_div (Path.isAbsolute_div (Path.isAbsolute_ofReal names) _) _
  obtain ⟨⟨⟩, -, walked⟩ := bind_eq_ok_iff.mp located
  rw [startOf_absolute absolute, path, Path.stepsOf_div (by simp) inside proper.toIsSegment]
    at walked
  obtain ⟨more, left, steps⟩ := Path.stepsOf_below proper.toIsSegment fileName
  have body : more.filterMap (fun step => Path.bodyComponent step.toList) =
      Path.bodyOf fileName := by
    have whole := Path.filterMap_stepsOf (stagingName ++ "/" ++ fileName)
    rw [steps, Path.bodyOf_below proper, List.filterMap_cons,
      Path.bodyComponent_of_proper proper] at whole
    exact (List.cons.inj whole).2
  have spoken : "" ∉ more := by
    have all := Path.stepsOf_filled (stagingName ++ "/" ++ fileName)
    rw [steps] at all
    exact List.not_mem_of_not_mem_cons all
  -- The walk comes to the directory of the package first, and goes on from there.
  rw [steps, List.append_cons] at walked
  obtain ⟨own, leads⟩ := (walks_of_walk walked).front rfl left
  have ownSpot : own = top ++ packagesDir :: [stagingName] := by
    obtain ⟨packages, leadsPackages⟩ := LeadsTo.front leads (List.cons_ne_nil stagingName [])
    have same : packages = top ++ [packagesDir] :=
      cleared.leads.spot_of_linkless leadsPackages (by simpa using isProper_packagesDir)
        cleared.sources
    have spot : own = (top ++ [packagesDir]) ++ [stagingName] :=
      LeadsTo.spot_of_linkless (same ▸ leadsPackages) leads (by simpa using proper)
        (cleared.sources.below _)
    simpa using spot
  obtain ⟨budget, onward⟩ := LeadsTo.onward leads
  rw [onward true more left, ownSpot] at walked
  have walks := walks_of_walk walked
  constructor
  · intro inner stays
    have start : top ++ packagesDir :: [stagingName] = (top ++ [packagesDir]) ++ [stagingName] := by
      simp
    rw [start] at walks
    obtain ⟨spot, -⟩ := walks.spot_within cleared.sources spoken (body ▸ stays)
    simpa using spot
  · intro inner stays
    have start : top ++ packagesDir :: [stagingName] =
        ((top ++ [packagesDir]) ++ [stagingName]) ++ [] := by simp
    rw [start] at walks
    obtain ⟨spot, below⟩ :=
      walks.spot_within (cleared.sources.below [stagingName]) spoken (body ▸ stays)
    exact ⟨below (by simp), by simpa using spot⟩

theorem manifest_within (proper : ∀ name ∈ names, IsProper name) (named : IsProper stagingName)
    (cleared : Cleared disk.tree names top)
    (located : disk.locate true (Path.ofReal names / packagesDir / stagingName / manifestFile) =
      .ok (.present place (.file content executable))) :
    place = top ++ [packagesDir, stagingName, manifestFile] := by
  have parts : ∀ name ∈ packagesDir :: [stagingName, manifestFile], IsProper name :=
    List.forall_mem_cons.mpr ⟨isProper_packagesDir, proper_manifest named⟩
  rw [manifestPath_eq (segments_of_proper proper) named.toIsSegment] at located
  obtain ⟨-, walks⟩ := (locate_ok_iff (segments_of_proper
    (proper_below proper isProper_packagesDir (proper_manifest named)))).mp located
  exact cleared.leads.spot_of_linkless walks parts cleared.sources

/-- The manifest at the top is in the root, unless its name was a link there. -/
theorem top_within (proper : ∀ name ∈ names, IsProper name) (leads : LeadsTo disk.tree names top)
    (plain : ∀ target, disk.tree.get? (top ++ [manifestFile]) ≠ some (.link target))
    (located : disk.locate true (Path.ofReal names / manifestFile) =
      .ok (.present place (.file content executable))) : place = top ++ [manifestFile] := by
  have segments := segments_of_proper proper
  rw [Path.ofReal_div_name segments isProper_manifestFile.toIsSegment] at located
  obtain ⟨-, walks⟩ := (locate_ok_iff
    (segments_append_one segments isProper_manifestFile.toIsSegment)).mp located
  exact leads.spot_of_no_link walks isProper_manifestFile plain

end Places

section Calls

variable {settings : Settings} {registry : Registry} {root path : Path} {files : List Classified}
  {manifests : List (StagingName × PackageManifest)}

/-- What staging may write: the manifest at the top, those of the packages, and the sources. -/
inductive Target (root : Path) (manifests : List (StagingName × PackageManifest))
    (files : List Classified) : Path → Prop where
  | top : Target root manifests files (root / manifestFile)
  | manifest (entry : StagingName × PackageManifest) (listed : entry ∈ manifests) :
      Target root manifests files (root / packagesDir / entry.1.text / manifestFile)
  | source (file : Classified) (listed : file ∈ files) (entry : file.kind = .entry) :
      Target root manifests files (root / packagesDir / file.stagedPath)

def Aims (target : Path → Prop) (call : Call) : Prop :=
  call.Builds ∧ ∀ path text, call = .file (.write path text) → target path

variable {target : Path → Prop}

@[reducible] def aims (target : Path → Prop) : Task.Terms Call.Reply := .anyReply (Aims target)

theorem aims_makeDir (absolute : path.isAbsolute = true) :
    Task.Steps (aims target).onFiles (Files.makeDir path) (fun _ => True) := by
  refine Task.steps_bind (Task.steps_ask ⟨absolute, ?_⟩) (fun _ _ _ _ => trivial)
  rintro other text ⟨⟩

theorem aims_write (absolute : path.isAbsolute = true) (aimed : target path) (text : String) :
    Task.Steps (aims target).onFiles (Files.write path text) (fun _ => True) := by
  have ending : Task.Steps (aims target).onFiles (Files.writeHere path text) (fun _ => True) := by
    refine Task.steps_bind (Task.steps_ask ⟨absolute, ?_⟩) (fun _ _ _ _ => trivial)
    rintro other more ⟨⟩
    exact aimed
  rw [Files.write_eq]
  split
  · rename_i above parent
    exact Task.steps_bind (aims_makeDir (Path.isAbsolute_parent absolute parent))
      (fun _ _ => ending)
  · exact ending

theorem aims_note (record : LogRecord) : (aims target).asks (.note record) := by
  refine ⟨trivial, ?_⟩
  rintro path text ⟨⟩

theorem aims_stage {config : BundleConfig} (absolute : root.isAbsolute = true) :
    Task.Steps (aims (Target root (manifestsOf settings registry (ownersOf files)) files))
      (stage settings registry root files config) (fun _ => True) := by
  have packages := Path.isAbsolute_div absolute packagesDir
  refine Task.steps_mono (Staging.steps_stage aims_note ?_ ?_ ?_ ?_) (fun _ _ => trivial)
  · intro file listed
    exact aims_makeDir (Path.isAbsolute_div packages _)
  · intro file listed entry
    exact aims_write (Path.isAbsolute_div packages _) (.source file listed entry) _
  · intro entry listed
    exact aims_write (Path.isAbsolute_div (Path.isAbsolute_div packages _) _)
      (.manifest entry listed) _
  · exact aims_write (Path.isAbsolute_div absolute manifestFile) .top

end Calls

section Containment

variable {disk ready left : Disk} {settings : Settings} {registry : Registry}
  {config : BundleConfig} {batch : StagedBatch} {reset : Bool}

theorem manifest_owner {files : List InputFile} {entry : StagingName × PackageManifest}
    (valid : ∀ file ∈ files, file.package.Valid)
    (listed : entry ∈ manifestsOf settings registry
      (ownersOf (files.map (classify settings)))) :
    ∃ file ∈ files, hasManifest settings file.package = true ∧
      entry.1.text = file.package.stagingName.text := by
  obtain ⟨⟨name, owner⟩, kept, rfl⟩ := List.mem_map.mp listed
  obtain ⟨owned, has⟩ := List.mem_filter.mp kept
  obtain ⟨file, member, rfl, own⟩ :=
    (get?_ownersOf_iff valid).mp (KeyMap.get?_eq_some_iff.mpr owned)
  exact ⟨file, member, has, own.symm⟩

theorem checkText_of_stage {names : List String} {files : List Classified}
    (proper : ∀ name ∈ names, IsProper name)
    (staged : (stage settings registry (Path.ofReal names) files config).onDisk ready =
      (.ok batch, left)) : checkText (Path.ofReal (names ++ [manifestFile])).text = .ok () := by
  obtain ⟨_, _, _, -, -, top, -⟩ := stage_ok staged
  rw [Path.ofReal_div_name (segments_of_proper proper) isProper_manifestFile.toIsSegment] at top
  exact checkText_of_write (proper_append_one proper isProper_manifestFile) top

theorem stage_writesAt {root : Path} {files : List Classified} (grounded : ready.tree.Grounded)
    (absolute : root.isAbsolute = true)
    (staged : (stage settings registry root files config).onDisk ready = (.ok batch, left)) :
    let written := Writes ((stage settings registry root files config).callsOn ready)
    (∀ path, written path →
      Target root (manifestsOf settings registry (ownersOf files)) files path) ∧
      WritesAt written ready left := by
  have steps : Task.Steps
      (aims (Target root (manifestsOf settings registry (ownersOf files)) files))
      (stage settings registry root files config) (fun _ => True) := aims_stage absolute
  have aimed := Task.calls_within (World.answer WorldTask.idleTools) (Task.brings_within steps)
    (World.onDisk ready)
  have ends : left = (WorldTask.inWorld (stage settings registry root files config).run
      WorldTask.idleTools (World.onDisk ready)).2.disk := (congrArg Prod.snd staged).symm
  refine ⟨?_, ends ▸ run_writesAt grounded (fun call made => (aimed call made).1)⟩
  rintro path ⟨text, made⟩
  exact (aimed _ made).2 path text rfl

/-- Staging writes the manifest at the top, those of the packages of the batch, and the sources of
its entries, and every file that is new or changed after it is one of these. The source of an entry
is where the components of its name lead from the directory of the package, as long as they do not
climb out of the directory of all packages: so it is below the directory of its own package if they
do not climb out of that, and below another one if they lead there. -/
theorem staged_files_in_place {workdir : RealPath} {draft : Settings.Draft} {platform : Platform}
    {files : List InputFile} (proper : ∀ name ∈ workdir, IsProper name)
    (built : draft.build workdir = .ok settings)
    (named : ∀ file ∈ files, file.package.Valid ∧ file.package.stagingName.text ≠ "." ∧
      file.package.stagingName.text ≠ "..")
    (grounded : disk.tree.Grounded)
    (prepared : (prepare (settings.stagingRoot platform) reset).onDisk disk = (.ok (), ready))
    (staged : (stage settings registry (settings.stagingRoot platform)
      (files.map (classify settings)) config).onDisk ready = (.ok batch, left)) :
    let root := settings.stagingRoot platform
    let written := Writes ((stage settings registry root (files.map (classify settings))
      config).callsOn ready)
    ∃ top, left.locate true root = .ok (.present top .directory) ∧
      (∀ place content executable, left.tree.get? place = some (.file content executable) →
        ready.tree.get? place = some (.file content executable) ∨ ∃ path, written path ∧
          left.locate true path = .ok (.present place (.file content executable))) ∧
      ∀ path place content executable, written path →
        left.locate true path = .ok (.present place (.file content executable)) →
          (path = root / manifestFile ∧
            (ready.ManifestUnlinked root → place = top ++ [manifestFile])) ∨
          (∃ file ∈ files, hasManifest settings file.package = true ∧
            path = root / packagesDir / file.package.stagingName.text / manifestFile ∧
            place = top ++ [packagesDir, file.package.stagingName.text, manifestFile]) ∨
          ∃ file ∈ files, kindOf settings file = .entry ∧
            path = root / packagesDir / (file.package.stagingName.text ++ "/" ++ file.fileName) ∧
            (∀ inner, Path.within [file.package.stagingName.text] (Path.bodyOf file.fileName) =
              some inner → place = top ++ packagesDir :: inner) ∧
            ∀ inner, Path.within [] (Path.bodyOf file.fileName) = some inner → inner ≠ [] ∧
              place = top ++ packagesDir :: file.package.stagingName.text :: inner := by
  obtain ⟨names, properRoot, spelled⟩ :=
    stagingRoot_eq proper (Settings.build_accepted built) platform
  rw [spelled] at prepared staged ⊢
  obtain ⟨-, top, -, cleared, -⟩ := prepare_cleared properRoot grounded prepared
  have filled : names ++ [platform.dirName] ≠ [] := by simp
  generalize names ++ [platform.dirName] = names at *
  intro root written
  have segments := segments_of_proper properRoot
  have absolute := Path.isAbsolute_ofReal names
  obtain ⟨aimed, writes⟩ := stage_writesAt cleared.grounded absolute staged
  have clearedLeft := cleared.grow writes.grown
  have checked := checkText_of_stage properRoot staged
  refine ⟨top, (locate_ok_iff segments).mpr ⟨checkText_front filled checked, clearedLeft.leads⟩,
    writes.files, fun path place content executable wrote located => ?_⟩
  have properName : ∀ file ∈ files, IsProper file.package.stagingName.text := by
    intro file member
    obtain ⟨valid, notHere, notUp⟩ := named file member
    exact ⟨PackageId.isSegment_stagingName valid, notHere, notUp⟩
  have target := aimed path wrote
  cases target with
  | top =>
      refine Or.inl ⟨rfl, fun unlinked => ?_⟩
      have noLink := plainManifest_of_unlinked properRoot checked unlinked top
      exact top_within properRoot clearedLeft.leads
        (fun target found => noLink target cleared.leads (writes.grown.link.mp found)) located
  | manifest entry listed =>
      obtain ⟨file, member, has, name⟩ := manifest_owner (fun file member => (named file member).1)
        listed
      rw [name] at located
      exact Or.inr (Or.inl ⟨file, member, has, by rw [name],
        manifest_within properRoot (properName file member) clearedLeft located⟩)
  | source staged listed entry =>
      obtain ⟨file, member, rfl⟩ := List.mem_map.mp listed
      exact Or.inr (Or.inr ⟨file, member, entry, rfl,
        source_within segments (properName file member) clearedLeft located⟩)

section ClimbingName

open Batch

def climbingModule : InputFile :=
  .ofSource (.package "acme:widgets") "../other/module.js" "w()" browser

def climbingFiles : List Classified := [climbingModule].map (classify plainSettings)

def climbingPath : Path := plainRoot / packagesDir / "acme_widgets/../other/module.js"

def climbingStage : Work StagedBatch :=
  stage plainSettings .empty plainRoot climbingFiles (startConfig plainSettings browser plainRoot)

def endsInFile : Except IoCause Place → Bool
  | .ok (.present _ (.file _ _)) => true
  | _ => false

/-- An entry whose name leads to the directory of another package is staged there. -/
theorem climbing_source_is_elsewhere : ∃ ready batch left top content executable,
    (prepare plainRoot false).onDisk ⟨emptyTree, []⟩ = (.ok (), ready) ∧
    climbingStage.onDisk ready = (.ok batch, left) ∧
    left.locate true plainRoot = .ok (.present top .directory) ∧
    left.locate true climbingPath =
      .ok (.present (top ++ [packagesDir, "other", "module.js"]) (.file content executable)) := by
  have prepares : ((prepare plainRoot false).onDisk ⟨emptyTree, []⟩).1.isOk = true := by
    decide +kernel
  have stages : (climbingStage.onDisk ((prepare plainRoot false).onDisk ⟨emptyTree, []⟩).2).1.isOk =
      true ∧ endsInFile ((climbingStage.onDisk ((prepare plainRoot false).onDisk
        ⟨emptyTree, []⟩).2).2.locate true climbingPath) = true ∧
      .file (.write climbingPath "w()") ∈
        climbingStage.callsOn ((prepare plainRoot false).onDisk ⟨emptyTree, []⟩).2 := by
    decide +kernel
  rcases prepared : (prepare plainRoot false).onDisk ⟨emptyTree, []⟩ with ⟨_ | ⟨⟩, ready⟩
  · rw [prepared] at prepares
    cases prepares
  rw [prepared] at stages
  rcases staged : climbingStage.onDisk ready with ⟨_ | batch, left⟩
  · rw [staged] at stages
    cases stages.1
  rw [staged] at stages
  obtain ⟨-, inFile, wrote⟩ := stages
  have named : ∀ file ∈ [climbingModule], file.package.Valid ∧
      file.package.stagingName.text ≠ "." ∧ file.package.stagingName.text ≠ ".." := by
    intro file member
    rw [List.mem_singleton.mp member]
    exact ⟨isOrdinary_widgetModule.valid, isOrdinary_widgetModule.notHere,
      isOrdinary_widgetModule.notUp⟩
  obtain ⟨top, root, -, inPlace⟩ := staged_files_in_place (by simp) build_plainDraft named
    grounded_emptyTree prepared staged
  rcases located : left.locate true climbingPath with _ | ⟨place, _ | ⟨content, executable⟩ | _⟩ | _
  all_goals rw [located] at inFile
  case ok.present.file =>
    have inner : Path.within ["acme_widgets"] (Path.bodyOf "../other/module.js") =
        some ["other", "module.js"] := by decide
    have own : climbingModule.package.stagingName.text = "acme_widgets" := by decide
    refine ⟨ready, batch, left, top, content, executable, rfl, staged, root, ?_⟩
    have notTop : climbingPath ≠ plainRoot / manifestFile := by decide +kernel
    have notManifest : climbingPath ≠ plainRoot / packagesDir / "acme_widgets" / manifestFile := by
      decide +kernel
    rcases inPlace climbingPath place content executable ⟨_, wrote⟩ located with
      ⟨same, -⟩ | ⟨file, member, -, same, -⟩ | ⟨file, member, -, -, spot, -⟩
    · exact absurd same notTop
    · rw [List.mem_singleton.mp member, own] at same
      exact absurd same notManifest
    · rw [List.mem_singleton.mp member, own] at spot
      rw [located, spot _ inner]
  all_goals cases inFile

end ClimbingName

end Containment

end Staging

end PlatformBundle
