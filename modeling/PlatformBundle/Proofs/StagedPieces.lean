import PlatformBundle.Proofs.Pieces
import PlatformBundle.Proofs.StagedBatches
/-!
Staging a batch as a row of pieces: the directory of the package of each file, the sources of the
entries, and the manifests of the packages after them. Staging goes through exactly if no file is
refused and the pieces and the manifest at the top can be put, and what it gives back depends on the
files alone.
-/

namespace PlatformBundle

open FileTree Disk

namespace Classified

def IsRefused (settings : Settings) (file : Classified) : Prop :=
  file.kind = .unsupported ∧ settings.unclassified = .reject

def directoryPiece (file : Classified) : Piece := ⟨[file.stagingName.text], none⟩

def sourcePiece (file : Classified) : Piece := ⟨namesOf file.stagedPath, some file.source⟩

def pieces (file : Classified) : List Piece :=
  file.directoryPiece :: if file.kind = .entry then [file.sourcePiece] else []

end Classified

namespace Staging

def manifestPiece (entry : StagingName × PackageManifest) : Piece :=
  ⟨[entry.1.text, manifestFile], some entry.2.fileText⟩

def piecesOf (settings : Settings) (registry : Registry) (files : List Classified) : List Piece :=
  files.flatMap Classified.pieces ++
    (manifestsOf settings registry (ownersOf files)).map manifestPiece

def batchOf (settings : Settings) (registry : Registry) (root : Path) (files : List Classified)
    (config : BundleConfig) : StagedBatch where
  root
  config := (files.foldl Progress.withFile ⟨KeyMap.empty, config⟩).config
  manifest := topManifest settings
    ((manifestsOf settings registry (ownersOf files)).map Prod.fst)
  packages := manifestsFor settings registry files
  stagingNames := (ownersOf files).mapValues (fun _ => ())

variable {disk left : Disk} {names : List String} {settings : Settings} {registry : Registry}
  {root : Path} {file : Classified} {files : List Classified} {progress after : Progress}
  {config : BundleConfig} {batch : StagedBatch}

theorem meetUnsupported_done (accepted : settings.unclassified ≠ .reject) :
    (meetUnsupported settings.unclassified file).onDisk disk = (.ok (), disk) := by
  unfold meetUnsupported
  split
  · rfl
  · exact Work.onDisk_note disk _ _
  · rename_i refused
    exact absurd refused accepted

theorem placing_ok_iff :
    (placing settings root progress file).onDisk disk = (.ok after, left) ↔
      after = progress.withFile file ∧ ¬ file.IsRefused settings ∧
        if file.kind = .entry then
          (Files.write (root / packagesDir / file.stagedPath) file.source).onDisk disk =
            (.ok (), left)
        else left = disk := by
  constructor
  · intro placed
    obtain ⟨same, put⟩ := placing_ok placed
    refine ⟨same, ?_, put⟩
    rintro ⟨kind, refuses⟩
    unfold placing at placed
    simp only [kind] at placed
    obtain ⟨_, _, met, -⟩ := (Work.onDisk_bind_ok_iff disk (fun _ => Work.isPlain_pure _)).mp placed
    rw [refuses] at met
    cases met
  · rintro ⟨rfl, accepted, put⟩
    unfold placing Progress.withFile
    cases kind : file.kind with
    | entry =>
        rw [kind, if_pos rfl] at put
        refine (Work.onDisk_bind_ok_iff disk (fun _ => Work.isPlain_pure _)).mpr
          ⟨(), left, ?_, by simp [Work.onDisk_pure]⟩
        rw [Work.onDisk_inWork, put]
    | unsupported =>
        rw [kind, if_neg (by simp)] at put
        refine (Work.onDisk_bind_ok_iff disk (fun _ => Work.isPlain_pure _)).mpr
          ⟨(), disk, meetUnsupported_done (fun refuses => accepted ⟨kind, refuses⟩), ?_⟩
        simp [Work.onDisk_pure, put]
    | sharedPlaceholder =>
        rw [kind, if_neg (by simp)] at put
        simp [Work.onDisk_pure, put]
    | script =>
        rw [kind, if_neg (by simp)] at put
        simp [Work.onDisk_pure, put]

def laying (root : Path) (file : Classified) : FileWork Unit := do
  Files.makeDir (root / packagesDir / file.stagingName.text)
  if file.kind = .entry then Files.write (root / packagesDir / file.stagedPath) file.source
  else pure ()

def layingAll (root : Path) : List Classified → FileWork Unit
  | [] => pure ()
  | file :: rest => do
      laying root file
      layingAll root rest

def describing (settings : Settings) (registry : Registry) (root : Path) (files : List Classified) :
    FileWork Unit := do
  let manifests := manifestsOf settings registry (ownersOf files)
  writeManifests root manifests
  Files.write (root / manifestFile) (topManifest settings (manifests.map Prod.fst)).fileText

theorem laying_ok_iff : (laying root file).onDisk disk = (.ok (), left) ↔
    ∃ made, (Files.makeDir (root / packagesDir / file.stagingName.text)).onDisk disk =
        (.ok (), made) ∧
      if file.kind = .entry then
        (Files.write (root / packagesDir / file.stagedPath) file.source).onDisk made =
          (.ok (), left)
      else left = made := by
  have later (made : Disk) : FileWork.onDisk (if file.kind = .entry then
      Files.write (root / packagesDir / file.stagedPath) file.source else pure ()) made =
        (.ok (), left) ↔
      if file.kind = .entry then
        (Files.write (root / packagesDir / file.stagedPath) file.source).onDisk made =
          (.ok (), left)
      else left = made := by
    split
    · rfl
    · rw [FileWork.onDisk_pure, Prod.mk.injEq, eq_comm (a := made)]
      exact and_iff_right rfl
  rw [laying, FileWork.onDisk_then_ok_iff]
  simp only [later]

theorem layingAll_cons_ok_iff :
    (layingAll root (file :: files)).onDisk disk = (.ok (), left) ↔
      ∃ middle, (laying root file).onDisk disk = (.ok (), middle) ∧
        (layingAll root files).onDisk middle = (.ok (), left) :=
  FileWork.onDisk_then_ok_iff disk

theorem layingAll_append_ok_iff {others : List Classified} :
    (layingAll root (files ++ others)).onDisk disk = (.ok (), left) ↔
      ∃ middle, (layingAll root files).onDisk disk = (.ok (), middle) ∧
        (layingAll root others).onDisk middle = (.ok (), left) :=
  FileWork.row_append_ok_iff rfl (fun _ _ => rfl)

theorem stageFile_ok_iff :
    (stageFile settings root progress file).onDisk disk = (.ok after, left) ↔
      after = progress.withFile file ∧ ¬ file.IsRefused settings ∧
        (laying root file).onDisk disk = (.ok (), left) := by
  rw [stageFile_eq, Work.onDisk_bind_ok_iff disk (fun _ => isPlain_placing _ _ _ _),
    Work.onDisk_inWork, laying_ok_iff]
  simp only [placing_ok_iff]
  constructor
  · rintro ⟨_, made, make, same, accepted, put⟩
    exact ⟨same, accepted, made, make, put⟩
  · rintro ⟨same, accepted, made, make, put⟩
    exact ⟨(), made, make, same, accepted, put⟩

theorem stageFiles_ok_iff :
    (stageFiles settings root progress files).onDisk disk = (.ok after, left) ↔
      after = files.foldl Progress.withFile progress ∧
        (∀ file ∈ files, ¬ file.IsRefused settings) ∧
        (layingAll root files).onDisk disk = (.ok (), left) := by
  induction files generalizing progress disk with
  | nil =>
      rw [stageFiles, Work.onDisk_pure]
      simp [layingAll, eq_comm]
  | cons file rest ih =>
      rw [stageFiles, Work.onDisk_bind_ok_iff disk (fun next => isPlain_stageFiles _ _ next rest)]
      simp only [stageFile_ok_iff, ih, layingAll_cons_ok_iff, List.forall_mem_cons, List.foldl_cons]
      constructor
      · rintro ⟨_, middle, ⟨rfl, accepted, put⟩, same, others, puts⟩
        exact ⟨same, ⟨accepted, others⟩, middle, put, puts⟩
      · rintro ⟨same, ⟨accepted, others⟩, middle, put, puts⟩
        exact ⟨_, middle, ⟨rfl, accepted, put⟩, same, others, puts⟩

/-- What staging comes to, whatever the files are called. -/
theorem stage_done_iff :
    (stage settings registry root files config).onDisk disk = (.ok batch, left) ↔
      batch = batchOf settings registry root files config ∧
        (∀ file ∈ files, ¬ file.IsRefused settings) ∧ ∃ sources,
        (layingAll root files).onDisk disk = (.ok (), sources) ∧
        (describing settings registry root files).onDisk sources = (.ok (), left) := by
  have owners := owners_withFiles files config
  rw [stage_steps_iff]
  simp only [stageFiles_ok_iff, describing, FileWork.onDisk_then_ok_iff]
  constructor
  · rintro ⟨_, sources, described, ⟨rfl, accepted, laid⟩, manifests, top, rfl⟩
    rw [owners] at manifests top
    refine ⟨?_, accepted, sources, laid, described, manifests, top⟩
    rw [Progress.batch, owners]
    rfl
  · rintro ⟨rfl, accepted, sources, laid, described, manifests, top⟩
    refine ⟨_, sources, described, ⟨rfl, accepted, laid⟩, ?_⟩
    rw [Progress.batch, owners]
    exact ⟨manifests, top, rfl⟩

theorem isNamed_sources (ordinary : ∀ file ∈ files, file.IsOrdinary) :
    ∀ piece ∈ files.flatMap Classified.pieces, piece.IsNamed := by
  intro piece listed
  obtain ⟨file, member, own⟩ := List.mem_flatMap.mp listed
  have fine := ordinary file member
  rcases List.mem_cons.mp own with rfl | source
  · exact ⟨List.cons_ne_nil _ _, by simpa [Classified.directoryPiece] using fine.staging⟩
  · split at source
    · rw [List.mem_singleton.mp source]
      exact ⟨namesOf_ne_nil _, fine.proper⟩
    · cases source

theorem isNamed_manifests (ordinary : ∀ file ∈ files, file.IsOrdinary) :
    ∀ piece ∈ (manifestsOf settings registry (ownersOf files)).map manifestPiece,
      piece.IsNamed := by
  intro piece listed
  obtain ⟨entry, member, rfl⟩ := List.mem_map.mp listed
  exact ⟨List.cons_ne_nil _ _, proper_manifest
    (manifests_proper (fun file listed => (ordinary file listed).staging) entry member)⟩

theorem isNamed_piecesOf (ordinary : ∀ file ∈ files, file.IsOrdinary) :
    ∀ piece ∈ piecesOf settings registry files, piece.IsNamed := by
  intro piece listed
  rcases List.mem_append.mp listed with source | manifest
  · exact isNamed_sources ordinary piece source
  · exact isNamed_manifests ordinary piece manifest

section Pieces

variable (segments : ∀ name ∈ names, IsSegment name)
include segments

theorem put_directory (ordinary : file.IsOrdinary) : file.directoryPiece.put names =
    Files.makeDir (Path.ofReal names / packagesDir / file.stagingName.text) := by
  have inner := segments_append_one segments isProper_packagesDir.toIsSegment
  rw [Path.ofReal_div_name segments isProper_packagesDir.toIsSegment,
    Path.ofReal_div_name inner ordinary.staging.toIsSegment, List.append_assoc]
  rfl

theorem put_source (ordinary : file.IsOrdinary) : file.sourcePiece.put names =
    Files.write (Path.ofReal names / packagesDir / file.stagedPath) file.source := by
  have path : Path.ofReal names / packagesDir / file.stagedPath = _ :=
    sourcePath_eq segments ordinary
  rw [path]
  rfl

theorem laying_put_iff (ordinary : file.IsOrdinary) :
    (laying (Path.ofReal names) file).onDisk disk = (.ok (), left) ↔
      (Piece.putAll names file.pieces).onDisk disk = (.ok (), left) := by
  have makes := put_directory segments ordinary
  have writes := put_source segments ordinary
  have later (made : Disk) :
      (Piece.putAll names (if file.kind = .entry then [file.sourcePiece] else [])).onDisk made =
          (.ok (), left) ↔
        if file.kind = .entry then
          (Files.write (Path.ofReal names / packagesDir / file.stagedPath) file.source).onDisk
            made = (.ok (), left)
        else left = made := by
    split
    · rw [Piece.putAll_cons_ok_iff, writes]
      constructor
      · rintro ⟨_, wrote, ⟨⟩⟩
        exact wrote
      · exact fun wrote => ⟨left, wrote, rfl⟩
    · exact ⟨fun ends => by cases ends; rfl, fun same => by rw [same]; rfl⟩
  rw [laying_ok_iff, Classified.pieces, Piece.putAll_cons_ok_iff, makes]
  simp only [later]

theorem layingAll_put_iff (ordinary : ∀ file ∈ files, file.IsOrdinary) :
    (layingAll (Path.ofReal names) files).onDisk disk = (.ok (), left) ↔
      (Piece.putAll names (files.flatMap Classified.pieces)).onDisk disk = (.ok (), left) := by
  induction files generalizing disk with
  | nil => rfl
  | cons file rest ih =>
      have own := ordinary file List.mem_cons_self
      have later := fun other listed => ordinary other (List.mem_cons_of_mem file listed)
      rw [layingAll_cons_ok_iff, List.flatMap_cons, Piece.putAll_append_ok_iff]
      simp only [laying_put_iff segments own, ih later]

theorem writeManifests_eq {manifests : List (StagingName × PackageManifest)}
    (proper : ∀ entry ∈ manifests, IsProper entry.1.text) :
    writeManifests (Path.ofReal names) manifests =
      Piece.putAll names (manifests.map manifestPiece) := by
  induction manifests with
  | nil => rfl
  | cons entry rest ih =>
      have path := manifestPath_eq segments (proper entry List.mem_cons_self).toIsSegment
      rw [writeManifests, path,
        ih (fun other listed => proper other (List.mem_cons_of_mem _ listed))]
      rfl

theorem stage_ok_iff (ordinary : ∀ file ∈ files, file.IsOrdinary) :
    (stage settings registry (Path.ofReal names) files config).onDisk disk = (.ok batch, left) ↔
      batch = batchOf settings registry (Path.ofReal names) files config ∧
        (∀ file ∈ files, ¬ file.IsRefused settings) ∧ ∃ described,
        (Piece.putAll names (piecesOf settings registry files)).onDisk disk = (.ok (), described) ∧
        (Files.write (Path.ofReal names / manifestFile)
          (batchOf settings registry (Path.ofReal names) files config).manifest.fileText).onDisk
          described = (.ok (), left) := by
  have proper : ∀ entry ∈ manifestsOf settings registry (ownersOf files), IsProper entry.1.text :=
    manifests_proper (fun file listed => (ordinary file listed).staging)
  rw [stage_done_iff, piecesOf]
  simp only [describing, FileWork.onDisk_bind_ok_iff, writeManifests_eq segments proper,
    layingAll_put_iff segments ordinary, Piece.putAll_append_ok_iff]
  refine and_congr_right (fun _ => and_congr_right (fun _ => ?_))
  constructor
  · rintro ⟨sources, laid, _, described, manifests, top⟩
    exact ⟨described, ⟨sources, laid, manifests⟩, top⟩
  · rintro ⟨described, ⟨sources, laid, manifests⟩, top⟩
    exact ⟨sources, laid, (), described, manifests, top⟩

end Pieces

end Staging

end PlatformBundle
