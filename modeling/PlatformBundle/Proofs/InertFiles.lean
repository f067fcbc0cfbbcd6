import PlatformBundle.Proofs.EarlyDirectories
import PlatformBundle.Proofs.FileOrder
import PlatformBundle.Proofs.FreshOutput
import PlatformBundle.Proofs.KeptSources
/-!
Files that bring nothing but their place in the batch. Staging makes the directory of the package of
such a file, which the batch makes anyway for another file of the package, so all that can change
is that the directory is there early. The artifact of the file is empty, and the settings may have
the whole batch refused for its sake.
-/

namespace PlatformBundle

open FileTree Disk

theorem KeyMap.insert_known {β : Type} {map : KeyMap β} {key : String} {value : β}
    (known : map.get? key = some value) : map.insert key value = map := by
  refine ext_get? _ _ (fun name => ?_)
  rw [get?_insert]
  split
  · rename_i own
    rw [← own, known]
  · rfl

namespace Staging

section Described

variable {settings : Settings} {registry : Registry} {root : Path} {config : BundleConfig}
  {files : List Classified} {file : Classified}

theorem ownersOf_known (known : (ownersOf files).get? file.stagingName.text = some file.package) :
    ownersOf (files ++ [file]) = ownersOf files := by
  rw [ownersOf, List.foldl_append]
  exact KeyMap.insert_known known

-- The owner is known already, and a file that is no entry is no part of the bundle.
theorem batchOf_known (silent : file.kind ≠ .entry)
    (known : (ownersOf files).get? file.stagingName.text = some file.package) :
    batchOf settings registry root (files ++ [file]) config =
      batchOf settings registry root files config := by
  have kept : ((files ++ [file]).foldl Progress.withFile ⟨KeyMap.empty, config⟩).config =
      (files.foldl Progress.withFile ⟨KeyMap.empty, config⟩).config := by
    rw [List.foldl_append, List.foldl_cons, List.foldl_nil, Progress.withFile, if_neg silent]
  unfold batchOf manifestsFor
  rw [kept, ownersOf_known known]

end Described

section Bearing

variable {top : RealPath} {root : Path} (absolute : root.isAbsolute = true)
include absolute

theorem bears_laying (file : Classified) : Bears top (laying root file).onDisk := by
  have inside := Path.isAbsolute_div absolute packagesDir
  unfold laying
  refine FileWork.bears_bind (Files.bears_makeDir (Path.isAbsolute_div inside _)) (fun _ => ?_)
  split
  · exact Files.bears_writeFile (Path.isAbsolute_div inside _) file.source
  · exact FileWork.bears_pure ()

theorem bears_layingAll (files : List Classified) : Bears top (layingAll root files).onDisk := by
  induction files with
  | nil => exact FileWork.bears_pure ()
  | cons file rest ih => exact FileWork.bears_bind (bears_laying absolute file) (fun _ => ih)

theorem bears_writeManifests (manifests : List (StagingName × PackageManifest)) :
    Bears top (writeManifests root manifests).onDisk := by
  induction manifests with
  | nil => exact FileWork.bears_pure ()
  | cons entry rest ih =>
      have inside := Path.isAbsolute_div (Path.isAbsolute_div absolute packagesDir) entry.1.text
      exact FileWork.bears_bind
        (Files.bears_writeFile (Path.isAbsolute_div inside manifestFile) entry.2.fileText)
        (fun _ => ih)

theorem bears_describing (settings : Settings) (registry : Registry) (files : List Classified) :
    Bears top (describing settings registry root files).onDisk :=
  FileWork.bears_bind (bears_writeManifests absolute _)
    (fun _ => Files.bears_writeFile (Path.isAbsolute_div absolute manifestFile) _)

end Bearing

section EarlyDirectory

variable {disk left : Disk} {names : List String} {place : RealPath} {package : PackageId}

def directoryNames (names : List String) (package : PackageId) : List String :=
  names ++ [packagesDir] ++ [package.stagingName.text]

/-- The directory of a package is there, at the place that its name calls for. -/
structure HasDirectory (tree : FileTree) (names : List String) (place : RealPath)
    (package : PackageId) : Prop where
  checked : checkText (Path.ofReal (directoryNames names package)).text = .ok ()
  packages : LeadsTo tree (names ++ [packagesDir]) (place ++ [packagesDir])
  leads : LeadsTo tree (directoryNames names package) (package.directory (place ++ [packagesDir]))

theorem directoryPath_eq (proper : ∀ name ∈ names, IsProper name) (valid : package.Valid) :
    Path.ofReal names / packagesDir / package.stagingName.text =
      Path.ofReal (directoryNames names package) := by
  have segments := segments_of_proper proper
  rw [Path.ofReal_div_name segments isProper_packagesDir.toIsSegment,
    Path.ofReal_div_name (segments_append_one segments isProper_packagesDir.toIsSegment)
      (PackageId.isSegment_stagingName valid)]
  rfl

theorem hasDirectory_of_made (proper : ∀ name ∈ names, IsProper name) (valid : package.Valid)
    (cleared : Cleared disk.tree names place)
    (made : ∃ before after, Grown (fun _ => False) disk.tree before.tree ∧
      (Files.makeDir (Path.ofReal names / packagesDir / package.stagingName.text)).onDisk before =
        (.ok (), after) ∧ Grown (fun _ => False) after.tree left.tree) :
    HasDirectory left.tree names place package := by
  obtain ⟨before, after, reached, make, ends⟩ := made
  obtain ⟨checked, packages, leads⟩ :=
    PackageId.makeDir_leads valid (segments_of_proper proper) (cleared.grow reached) make
  exact ⟨checked, packages.grow ends.toGrows, leads.grow ends.toGrows⟩

theorem createDirs_early (proper : ∀ name ∈ names, IsProper name) {way : List String}
    (properWay : ∀ name ∈ way, IsProper name) (filled : way ≠ [])
    (cleared : Cleared disk.tree names place)
    (checked : checkText (Path.ofReal (names ++ way)).text = .ok ()) {found : RealPath}
    (leads : LeadsTo left.tree (names ++ way) found) (room : HasRoom (place ++ way) disk) :
    ∃ made, disk.createDirs (Path.ofReal (names ++ way)) = (.ok (), made) ∧
      Roomier (place ++ way) disk made ∧ LeadsTo made.tree (names ++ way) (place ++ way) := by
  have properAll : ∀ name ∈ names ++ way, IsProper name := by
    intro name listed
    exact (List.mem_append.mp listed).elim (proper name) (properWay name)
  have short := short_of_leads properWay leads
  obtain ⟨tree, made, same⟩ := createDirs_open cleared.leads cleared.grounded properAll filled
    checked short (fun front inside => room _ ((List.prefix_append_right_inj place).mpr inside))
  exact ⟨_, made, same, leads_of_made cleared.leads cleared.grounded
    (entries_of_proper properAll short) (room _ List.prefix_rfl) made same⟩

-- The names of `.` and `..` are steps. One leads nowhere else, and the path above it is the one
-- above all packages, so the directory of all packages has to be there; the other leads up from
-- that directory, which is made on the way.
theorem makeDir_early (proper : ∀ name ∈ names, IsProper name) (valid : package.Valid)
    (cleared : Cleared disk.tree names place)
    (there : HasDirectory left.tree names place package)
    (packages : package = .package "." →
      LeadsTo disk.tree (names ++ [packagesDir]) (place ++ [packagesDir])) :
    ∃ top, (∃ way, LeadsTo left.tree way top) ∧
      (HasRoom top disk → ∃ made,
        (Files.makeDir (Path.ofReal names / packagesDir / package.stagingName.text)).onDisk disk =
          (.ok (), made) ∧ Roomier top disk made) := by
  have inner := segments_append_one (segments_of_proper proper) isProper_packagesDir.toIsSegment
  have segments : ∀ name ∈ directoryNames names package, IsSegment name :=
    segments_append_one inner (PackageId.isSegment_stagingName valid)
  have absolute := Path.isAbsolute_ofReal (directoryNames names package)
  obtain ⟨checked, leadsTop, leads⟩ := there
  simp only [directoryPath_eq proper valid, Files.makeDir_ok_iff]
  rcases PackageId.directory_cases valid with rfl | rfl | ⟨-, -, properName⟩
  · have stands := packages rfl
    refine ⟨place ++ [packagesDir], ⟨_, leadsTop⟩, fun _ =>
      ⟨disk, makeFrom_there absolute ((isDirectory_iff segments).mpr ⟨checked, _, stands.here⟩) _,
        (withDirs_place stands cleared.grounded).symm⟩⟩
  · refine ⟨place ++ [packagesDir], ⟨_, leadsTop⟩, fun room => ?_⟩
    obtain ⟨made, makeAbove, roomier, leadsMade⟩ := createDirs_early proper
      (by simpa using isProper_packagesDir) (List.cons_ne_nil _ _) cleared
      (checkText_front (by simp) checked) leadsTop room
    have make : made.makeDirIfMissing (Path.ofReal (directoryNames names (.package ".."))) =
        (.ok (), made) :=
      makeDirIfMissing_of_isDirectory absolute
        ((isDirectory_iff segments).mpr ⟨checked, _, leadsMade.up⟩)
    exact ⟨made, createDirs_up (proper_append_one proper isProper_packagesDir) cleared.grounded
      makeAbove make, roomier⟩
  · have child : package.directory (place ++ [packagesDir]) =
        place ++ [packagesDir, package.stagingName.text] := by
      rw [PackageId.directory, PackageId.spelled_name _ properName, List.append_assoc]
      rfl
    have way : directoryNames names package =
        names ++ [packagesDir, package.stagingName.text] := by simp [directoryNames]
    rw [child] at leads
    rw [way] at checked leads ⊢
    refine ⟨_, ⟨_, leads⟩, fun room => ?_⟩
    obtain ⟨made, make, roomier, -⟩ := createDirs_early proper
      (by simpa using ⟨isProper_packagesDir, properName⟩) (List.cons_ne_nil _ _) cleared checked
      leads room
    exact ⟨made, make, roomier⟩

end EarlyDirectory

section Inserted

variable {disk ready left : Disk} {names : List String} {place : RealPath} {settings : Settings}
  {registry : Registry} {front back : List InputFile} {file : InputFile} {config : BundleConfig}
  {batch : StagedBatch}

theorem packages_of_laid (proper : ∀ name ∈ names, IsProper name)
    (valid : ∀ file ∈ front, file.package.Valid) (cleared : Cleared disk.tree names place)
    (staged : (stageFiles settings (Path.ofReal names) ⟨KeyMap.empty, config⟩
      (front.map (classify settings))).onDisk disk =
      (.ok ((front.map (classify settings)).foldl Progress.withFile ⟨KeyMap.empty, config⟩), left))
    (filled : front ≠ []) :
    LeadsTo left.tree (names ++ [packagesDir]) (place ++ [packagesDir]) := by
  obtain ⟨first, given⟩ := List.exists_mem_of_ne_nil front filled
  have made := stageFiles_makes_directories (Path.isAbsolute_ofReal names) cleared.grounded staged
  exact (hasDirectory_of_made proper (valid first given) cleared
    (made (classify settings first) (List.mem_map_of_mem given))).packages

theorem batchOf_inserted (valid : ∀ file ∈ front ++ back, file.package.Valid)
    (silent : (classify settings file).kind ≠ .entry)
    (known : ∃ other ∈ front ++ back, other.package = file.package) :
    ownersOf ((front ++ file :: back).map (classify settings)) =
        ownersOf ((front ++ back).map (classify settings)) ∧
      batchOf settings registry (Path.ofReal names)
          ((front ++ file :: back).map (classify settings)) config =
        batchOf settings registry (Path.ofReal names) ((front ++ back).map (classify settings))
          config := by
  obtain ⟨other, given, own⟩ := known
  have owner : (ownersOf ((front ++ back).map (classify settings))).get?
      (classify settings file).stagingName.text = some (classify settings file).package :=
    (get?_ownersOf_iff valid).mpr ⟨other, given, own, rfl⟩
  have permuted : (front ++ file :: back).Perm (front ++ back ++ [file]) :=
    List.perm_middle.trans (List.perm_append_singleton _ _).symm
  have ownNames : OwnNames ((front ++ file :: back).map (classify settings)) := by
    refine ownNames_classify (fun each listed => ?_)
    rcases List.mem_append.mp (permuted.mem_iff.mp listed) with before | new
    · exact valid each before
    · rw [List.mem_singleton.mp new, ← own]
      exact valid other given
  have rearranged : ((front ++ file :: back).map (classify settings)).Perm
      ((front ++ back).map (classify settings) ++ [classify settings file]) := by
    rw [← List.map_singleton, ← List.map_append]
    exact permuted.map (classify settings)
  exact ⟨(ownersOf_perm rearranged ownNames).trans (ownersOf_known owner),
    (batchOf_perm rearranged ownNames).trans (batchOf_known silent owner)⟩

/-- A batch that can be staged can be staged with one more file of a package that it has, and to
the same outcome, if the file is no entry. -/
theorem stage_inserted (proper : ∀ name ∈ names, IsProper name)
    (valid : ∀ file ∈ front ++ back, file.package.Valid) (cleared : Cleared ready.tree names place)
    (accepted : ¬ (classify settings file).IsRefused settings)
    (silent : (classify settings file).kind ≠ .entry)
    (known : ∃ other ∈ front ++ back, other.package = file.package)
    (packages : file.package = .package "." → front = [] →
      LeadsTo ready.tree (names ++ [packagesDir]) (place ++ [packagesDir]))
    (staged : (stage settings registry (Path.ofReal names)
      ((front ++ back).map (classify settings)) config).onDisk ready = (.ok batch, left)) :
    ∃ again, (stage settings registry (Path.ofReal names)
        ((front ++ file :: back).map (classify settings)) config).onDisk ready =
        (.ok batch, again) ∧ ∀ spot, again.tree.get? spot = left.tree.get? spot := by
  have absolute := Path.isAbsolute_ofReal names
  obtain ⟨sameOwners, sameBatch⟩ : _ ∧ batchOf settings registry (Path.ofReal names) _ config = _ :=
    batchOf_inserted valid silent known
  obtain ⟨other, given, own⟩ := known
  have there : HasDirectory left.tree names place file.package := by
    have made := stage_makes_directories absolute cleared.grounded staged
    rw [← own]
    exact hasDirectory_of_made proper (valid other given) cleared
      (made (classify settings other) (List.mem_map_of_mem given))
  obtain ⟨rfl, fine, sources, laid, described⟩ := stage_done_iff.mp staged
  rw [List.map_append] at laid
  obtain ⟨middle, early, late⟩ := layingAll_append_ok_iff.mp laid
  have stagedEarly : (stageFiles settings (Path.ofReal names) ⟨KeyMap.empty, config⟩
      (front.map (classify settings))).onDisk ready = (.ok _, middle) :=
    stageFiles_ok_iff.mpr ⟨rfl, fun each listed => fine each (by simp_all), early⟩
  have clearedMiddle := cleared.grow (stageFiles_grown absolute cleared.grounded stagedEarly)
  have packagesMiddle : file.package = .package "." →
      LeadsTo middle.tree (names ++ [packagesDir]) (place ++ [packagesDir]) := by
    intro here
    by_cases filled : front = []
    · subst filled
      cases early
      exact packages here rfl
    · exact packages_of_laid proper (fun each listed => valid each (List.mem_append_left _ listed))
        cleared stagedEarly filled
  obtain ⟨top, ⟨way, leads⟩, making⟩ :=
    makeDir_early proper (own ▸ valid other given) clearedMiddle there packagesMiddle
  -- All that comes after the file finds the directory of the package there early.
  have bears : Bears top (FileWork.onDisk (do
      layingAll (Path.ofReal names) (back.map (classify settings))
      describing settings registry (Path.ofReal names)
        ((front ++ back).map (classify settings)))) :=
    FileWork.bears_bind (bears_layingAll absolute _) (fun _ => bears_describing absolute _ _ _)
  obtain ⟨room, ends⟩ := bears.same_end clearedMiddle.grounded
    ((FileWork.onDisk_bind_ok_iff middle).mpr ⟨(), sources, late, described⟩) leads
  obtain ⟨made, make, roomier⟩ := making room
  obtain ⟨again, done, same⟩ := ends made roomier
  obtain ⟨_, sourcesAgain, lateAgain, describedAgain⟩ := (FileWork.onDisk_bind_ok_iff made).mp done
  refine ⟨again, stage_done_iff.mpr ⟨sameBatch.symm, ?_, sourcesAgain, ?_, ?_⟩, same⟩
  · simp only [List.map_append, List.map_cons, List.forall_mem_append, List.forall_mem_cons]
      at fine ⊢
    exact ⟨fine.1, accepted, fine.2⟩
  · rw [List.map_append, List.map_cons]
    refine layingAll_append_ok_iff.mpr
      ⟨middle, early, layingAll_cons_ok_iff.mpr ⟨made, ?_, lateAgain⟩⟩
    exact laying_ok_iff.mpr ⟨made, make, by rw [if_neg silent]⟩
  · rw [describing, sameOwners]
    exact describedAgain

end Inserted

section Refused

variable {disk left : Disk} {settings : Settings} {registry : Registry} {root : Path}
  {early late files : List Classified} {file : Classified} {progress : Progress}
  {config : BundleConfig} {batch : StagedBatch}

def refusal (file : Classified) : Fault :=
  .general ("unsupported input file " ++ file.sourcePath ++
    " (extension `" ++ file.extension ++ "`)")

-- The files before the first one that is refused are staged as ever.
theorem stageFiles_refused (refuses : settings.unclassified = .reject)
    (fine : ∀ file ∈ early, file.kind ≠ .unsupported) (kind : file.kind = .unsupported)
    (laid : (layingAll root (early ++ file :: late)).onDisk disk = (.ok (), left)) :
    ((stageFiles settings root progress (early ++ file :: late)).onDisk disk).1 =
      .error (refusal file) := by
  induction early generalizing disk progress with
  | nil =>
      obtain ⟨middle, first, -⟩ := layingAll_cons_ok_iff.mp laid
      obtain ⟨made, make, -⟩ := laying_ok_iff.mp first
      refine Work.onDisk_bind_error disk (fun next => isPlain_stageFiles settings root next late) ?_
      rw [stageFile_eq, Work.onDisk_bind disk (fun _ => isPlain_placing _ _ _ _),
        Work.onDisk_inWork, make]
      simp only [placing, kind, meetUnsupported, refuses]
      rfl
  | cons first rest ih =>
      obtain ⟨own, others⟩ := List.forall_mem_cons.mp fine
      obtain ⟨middle, laidFirst, laidRest⟩ := layingAll_cons_ok_iff.mp laid
      have staged : (stageFile settings root progress first).onDisk disk = (.ok _, middle) :=
        stageFile_ok_iff.mpr ⟨rfl, fun refused => own refused.1, laidFirst⟩
      rw [List.cons_append, stageFiles,
        Work.onDisk_bind disk (fun next => isPlain_stageFiles settings root next _), staged]
      exact ih others laidRest

theorem stage_refused (refuses : settings.unclassified = .reject)
    (fine : ∀ file ∈ early, file.kind ≠ .unsupported) (kind : file.kind = .unsupported)
    (laid : (layingAll root (early ++ file :: late)).onDisk disk = (.ok (), left)) :
    ((stage settings registry root (early ++ file :: late) config).onDisk disk).1 =
      .error (refusal file) := by
  exact Work.onDisk_bind_error disk (fun _ => Work.isPlain_bind (Work.isPlain_inWork _) (fun _ =>
    Work.isPlain_bind (Work.isPlain_inWork _) (fun _ => Work.isPlain_pure _)))
    (stageFiles_refused refuses fine kind laid)

end Refused

end Staging

namespace Stitcher

variable {stitcher : Stitcher} {bundle : BundleConfig} {chunks after : Disk}
  {front back : List Classified} {file : Classified} {artifacts : List Artifact}

theorem stitchFile_silent (silent : file.kind = .script ∨ file.kind = .unsupported) :
    stitcher.stitchFile bundle chunks file = .ok (artifactOf file "") := by
  rcases silent with kind | kind <;> simp [stitchFile, readChunk, chunkOf, dataOf, kind, Except.map]

theorem stitch_silent {files : List Classified}
    (silent : ∀ file ∈ files, file.kind = .script ∨ file.kind = .unsupported) :
    ∃ artifacts, (stitcher.stitch bundle files).onDisk chunks = (.ok artifacts, chunks) := by
  obtain ⟨artifacts, done⟩ := mapM_done_iff.mpr (fun file listed =>
    ⟨_, stitchFile_silent (silent file listed)⟩)
  exact ⟨artifacts, by rw [stitch_onDisk, done]⟩

theorem stitch_inserted (silent : file.kind = .script ∨ file.kind = .unsupported)
    (stitched : (stitcher.stitch bundle (front ++ back)).onDisk chunks = (.ok artifacts, after)) :
    ∃ early late, artifacts = early ++ late ∧ early.length = front.length ∧
      (stitcher.stitch bundle (front ++ file :: back)).onDisk chunks =
        (.ok (early ++ artifactOf file "" :: late), after) := by
  rw [stitch_onDisk, Prod.mk.injEq, List.mapM_append] at stitched
  obtain ⟨done, rfl⟩ := stitched
  obtain ⟨early, first, rest⟩ := bind_eq_ok_iff.mp done
  obtain ⟨late, second, ends⟩ := bind_eq_ok_iff.mp rest
  cases ends
  refine ⟨early, late, rfl, (mapM_eq_ok_iff.mp first).length_eq.symm, ?_⟩
  rw [stitch_onDisk, List.mapM_append, List.mapM_cons, first, stitchFile_silent silent, second]
  rfl

end Stitcher

namespace Staging

section Inert

variable {settings : Settings} {registry : Registry} {root : Path} {files : List InputFile}
  {config : BundleConfig} {batch : StagedBatch} {start left : Disk}

def strict (settings : Settings) : Settings := { settings with unclassified := .reject }

theorem stage_strict
    (staged : (stage settings registry root (files.map (classify settings)) config).onDisk start =
      (.ok batch, left)) :
    ((∀ file ∈ files, kindOf settings file ≠ .unsupported) →
      (stage (strict settings) registry root (files.map (classify (strict settings)))
        config).onDisk start = (.ok batch, left)) ∧
    ∀ front file back, files = front ++ file :: back →
      (∀ earlier ∈ front, kindOf settings earlier ≠ .unsupported) →
      kindOf settings file = .unsupported →
      ((stage (strict settings) registry root (files.map (classify (strict settings)))
        config).onDisk start).1 = .error (refusal (classify settings file)) := by
  obtain ⟨same, -, sources, laid, described⟩ := stage_done_iff.mp staged
  constructor
  · intro supported
    refine stage_done_iff.mpr ⟨same, ?_, sources, laid, described⟩
    rintro file listed ⟨unsupported, -⟩
    obtain ⟨input, given, rfl⟩ := List.mem_map.mp listed
    exact supported input given unsupported
  · rintro front file back rfl fine unsupported
    rw [List.map_append, List.map_cons] at laid ⊢
    refine stage_refused rfl ?_ unsupported laid
    intro earlier listed
    obtain ⟨input, given, rfl⟩ := List.mem_map.mp listed
    exact fine input given

end Inert

/-- A file that is no entry and of a package that the batch has changes nothing of what is staged,
wherever it stands in the batch, and stitching gives it an empty artifact beside the others. The
package `.` cannot be the first to have its directory made, for making it makes nothing above it.
Settings that refuse unsupported files refuse exactly the batches that have one, with the first of
them named. -/
theorem non_entries_are_inert {workdir : RealPath} {draft : Settings.Draft} {settings : Settings}
    {registry : Registry} {platform : Platform} {files : List InputFile} {config : BundleConfig}
    {batch : StagedBatch} {reset : Bool} {disk ready left : Disk}
    (proper : ∀ name ∈ workdir, IsProper name) (built : draft.build workdir = .ok settings)
    (lenient : settings.unclassified ≠ .reject) (valid : ∀ file ∈ files, file.package.Valid)
    (grounded : disk.tree.Grounded)
    (prepared : (prepare (settings.stagingRoot platform) reset).onDisk disk = (.ok (), ready))
    (staged : (stage settings registry (settings.stagingRoot platform)
      (files.map (classify settings)) config).onDisk ready = (.ok batch, left)) :
    let root := settings.stagingRoot platform
    (∀ front file back, files = front ++ back →
      kindOf settings file = .script ∨ kindOf settings file = .unsupported →
      (∃ other ∈ files, other.package = file.package) →
      (file.package = .package "." → front = [] →
        ready.isDirectory (root / packagesDir) = true) →
      (∃ again, (stage settings registry root ((front ++ file :: back).map (classify settings))
          config).onDisk ready = (.ok batch, again) ∧
        ∀ spot, again.tree.get? spot = left.tree.get? spot) ∧
      ∀ (stitcher : Stitcher) (bundle : BundleConfig) (chunks after : Disk) artifacts,
        (stitcher.stitch bundle (files.map (classify settings))).onDisk chunks =
          (.ok artifacts, after) →
        ∃ early late, artifacts = early ++ late ∧ early.length = front.length ∧
          (stitcher.stitch bundle ((front ++ file :: back).map (classify settings))).onDisk chunks =
            (.ok (early ++ Stitcher.artifactOf (classify settings file) "" :: late), after)) ∧
    ∀ start outcome later, (stage settings registry root (files.map (classify settings))
        config).onDisk start = (.ok outcome, later) →
      ((∀ file ∈ files, kindOf settings file ≠ .unsupported) →
        (stage (strict settings) registry root (files.map (classify (strict settings)))
          config).onDisk start = (.ok outcome, later)) ∧
      ∀ front file back, files = front ++ file :: back →
        (∀ earlier ∈ front, kindOf settings earlier ≠ .unsupported) →
        kindOf settings file = .unsupported →
        ((stage (strict settings) registry root (files.map (classify (strict settings)))
          config).onDisk start).1 =
          .error (.general ("unsupported input file " ++ (classify settings file).sourcePath ++
            " (extension `" ++ file.extension ++ "`)")) := by
  obtain ⟨names, properRoot, root⟩ :=
    stagingRoot_eq proper (Settings.build_accepted built) platform
  dsimp only
  rw [root] at prepared staged ⊢
  obtain ⟨-, place, -, cleared, -⟩ := prepare_cleared properRoot grounded prepared
  generalize names ++ [platform.dirName] = names at *
  refine ⟨?_, fun start outcome later others => stage_strict others⟩
  rintro front file back rfl kinds known packages
  have silent : (classify settings file).kind = .script ∨
      (classify settings file).kind = .unsupported := kinds
  have noEntry : (classify settings file).kind ≠ .entry := by
    rintro entry
    rcases silent with kind | kind <;> cases entry.symm.trans kind
  have inner := segments_append_one (segments_of_proper properRoot) isProper_packagesDir.toIsSegment
  constructor
  · refine stage_inserted properRoot valid cleared (fun refused => lenient refused.2) noEntry known
      (fun here first => ?_) staged
    have there := packages here first
    rw [Path.ofReal_div_name (segments_of_proper properRoot) isProper_packagesDir.toIsSegment,
      isDirectory_iff inner] at there
    obtain ⟨-, top, leads⟩ := there
    have same : top = place ++ [packagesDir] :=
      cleared.leads.spot_of_linkless leads (by simpa using isProper_packagesDir) cleared.sources
    rwa [← same]
  · intro stitcher bundle chunks after artifacts stitched
    rw [List.map_append] at stitched
    obtain ⟨early, late, whole, length, again⟩ := Stitcher.stitch_inserted silent stitched
    rw [List.length_map] at length
    rw [List.map_append, List.map_cons]
    exact ⟨early, late, whole, length, again⟩

section Inserted

open Batch

def widgetStyle : InputFile := .ofSource (.package "acme:widgets") "style.css" "s" browser

/-- A style sheet between two modules changes nothing, unless the settings refuse it. -/
theorem style_between_modules : ∃ ready batch left again,
    (prepare plainRoot false).onDisk ⟨emptyTree, []⟩ = (.ok (), ready) ∧
    (stageBrowser plainSettings [widgetModule, appModule]).onDisk ready = (.ok batch, left) ∧
    (stageBrowser plainSettings [widgetModule, widgetStyle, appModule]).onDisk ready =
      (.ok batch, again) ∧
    (∀ spot, again.tree.get? spot = left.tree.get? spot) ∧
    ((stageBrowser (strict plainSettings) [widgetModule, widgetStyle, appModule]).onDisk ready).1 =
      .error (.general
        "unsupported input file acme:widgets/style.css (extension `css`)") := by
  obtain ⟨ready, batch, left, prepared, staged, -⟩ := modules_passed
  have widgets := isOrdinary_widgetModule.valid
  have app := isOrdinary_appModule.valid
  obtain ⟨inert, -⟩ := non_entries_are_inert (by simp) build_plainDraft (by decide)
    (by simpa using ⟨widgets, app⟩) grounded_emptyTree prepared staged
  obtain ⟨⟨again, inserted, same⟩, -⟩ := inert [widgetModule] widgetStyle [appModule] rfl
    (by decide) ⟨widgetModule, by simp, rfl⟩ (by simp)
  obtain ⟨-, strictly⟩ := non_entries_are_inert (by simp) build_plainDraft (by decide)
    (by simpa using ⟨widgets, widgets, app⟩) grounded_emptyTree prepared inserted
  obtain ⟨-, refused⟩ := strictly ready batch again inserted
  exact ⟨ready, batch, left, again, prepared, staged, inserted, same,
    refused [widgetModule] widgetStyle [appModule] rfl (by decide) (by decide)⟩

/-- A file that keeps a batch from being staged, where the batch alone is staged and stitched. -/
structure BlockedBy (settings : Settings) (start : Disk) (file : InputFile)
    (files : List InputFile) : Prop where
  lenient : settings.unclassified ≠ .reject
  valid : ∀ other ∈ files, other.package.Valid
  script : kindOf settings file = .script
  known : ∃ other ∈ files, other.package = file.package
  alone : ∃ batch left artifacts, (stageBrowser settings files).onDisk start = (.ok batch, left) ∧
    ((Stitcher.ofSettings settings .client).stitch batch.config
      (files.map (classify settings))).onDisk left = (.ok artifacts, left)
  blocked : ((stageBrowser settings (file :: files)).onDisk start).1.isOk = false

-- Scripts have no chunks, so they are stitched wherever they are staged.
theorem blockedBy_of_scripts {settings : Settings} {start : Disk} {file : InputFile}
    {files : List InputFile} (lenient : settings.unclassified ≠ .reject)
    (valid : ∀ other ∈ files, other.package.Valid)
    (scripts : ∀ other ∈ file :: files, kindOf settings other = .script)
    (known : ∃ other ∈ files, other.package = file.package)
    (runs : (((stageBrowser settings files).onDisk start).1.isOk &&
      !((stageBrowser settings (file :: files)).onDisk start).1.isOk) = true) :
    BlockedBy settings start file files := by
  obtain ⟨succeeds, stops⟩ := Bool.and_eq_true_iff.mp runs
  obtain ⟨own, others⟩ := List.forall_mem_cons.mp scripts
  obtain ⟨batch, left, staged⟩ := Work.ok_of_isOk succeeds
  have silent : ∀ other ∈ files.map (classify settings),
      other.kind = .script ∨ other.kind = .unsupported := by
    intro other listed
    obtain ⟨input, given, rfl⟩ := List.mem_map.mp listed
    exact Or.inl (others input given)
  obtain ⟨artifacts, stitched⟩ := Stitcher.stitch_silent silent
  exact ⟨lenient, valid, own, known, ⟨batch, left, artifacts, staged, stitched⟩,
    by simpa using stops⟩

theorem passBrowser_isOk {settings : Settings} {disk ready : Disk}
    (prepared : (prepare (settings.stagingRoot browser) false).onDisk disk = (.ok (), ready))
    (files : List InputFile) : ((passBrowser settings files).onDisk disk).1.isOk =
      ((stageBrowser settings files).onDisk ready).1.isOk := by
  have goes : ∀ _ : Unit, (stageBrowser settings files).IsPlain :=
    fun _ => isPlain_stage settings .empty _ _ _
  rw [passBrowser, Work.onDisk_bind disk goes, prepared]

def appScript : InputFile := .ofSource .application "util.js" "u()" browser

def hereScript : InputFile := .ofSource (.package ".") "util.js" "u()" browser

def ownScript : InputFile := .ofSource Settings.defaultOwnPackage "util.js" "u()" browser

def danglingTree : FileTree :=
  ⟨[(["b"], .directory), (["b", "web.browser"], .directory),
    (["b", "web.browser", "packages"], .directory),
    (["b", "web.browser", "packages", "rocket_module"], .link "__app__")]⟩

-- Nothing makes the directory of all packages for `.`, where the preparation has lost it; and a
-- link that was not cleared away leads nowhere before the directory of the application is made.
theorem insertions_that_fail :
    (loopedDraft.build [] = .ok loopedSettings ∧ looped.Grounded ∧ ∃ ready,
      (prepare loopedRoot false).onDisk ⟨looped, []⟩ = (.ok (), ready) ∧
      BlockedBy loopedSettings ready hereScript [appScript, hereScript]) ∧
    (plainDraft.build [] = .ok plainSettings ∧ danglingTree.Grounded ∧
      BlockedBy plainSettings ⟨danglingTree, []⟩ ownScript [appScript, ownScript]) := by
  have app := isOrdinary_appModule.valid
  have own : Settings.defaultOwnPackage.Valid := by
    rintro name ⟨⟩
    rfl
  refine ⟨⟨rfl, grounded_of_nodes (by simp [looped, get?, find]), ?_⟩,
    build_plainDraft, grounded_of_nodes (by simp [danglingTree, get?, find]), ?_⟩
  · have runs : (((passBrowser loopedSettings [appScript, hereScript]).onDisk
        ⟨looped, []⟩).1.isOk && !((passBrowser loopedSettings [hereScript, appScript,
        hereScript]).onDisk ⟨looped, []⟩).1.isOk) = true := by decide +kernel
    obtain ⟨_, _, ended⟩ := Work.ok_of_isOk (Bool.and_eq_true_iff.mp runs).1
    obtain ⟨ready, prepared, -⟩ := passBrowser_ok ended
    rw [passBrowser_isOk prepared, passBrowser_isOk prepared] at runs
    exact ⟨ready, prepared, blockedBy_of_scripts (by decide)
      (by simpa using ⟨app, PackageId.valid_here⟩) (by decide) ⟨hereScript, by simp, rfl⟩ runs⟩
  · exact blockedBy_of_scripts (by decide) (by simpa using ⟨app, own⟩) (by decide)
      ⟨ownScript, by simp, rfl⟩ (by decide +kernel)

end Inserted

end Staging

end PlatformBundle
