import Mathlib.Data.List.Perm.Basic
import PlatformBundle.Proofs.EntryArtifacts
import PlatformBundle.Proofs.StagedBatches
import PlatformBundle.Proofs.StagedPieces
import PlatformBundle.Proofs.StitchedFiles
/-!
The order of the files of a batch. It decides neither whether the batch can be staged nor what is
staged: the disk looks the same and the batch is described the same. And stitching gives each file
the artifact that it gets in any other order.
-/

namespace PlatformBundle

open FileTree Disk

theorem KeyMap.insert_comm {β : Type} (map : KeyMap β) {key other : String} {value more : β}
    (agree : key = other → value = more) :
    (map.insert key value).insert other more = (map.insert other more).insert key value := by
  refine ext_get? _ _ (fun name => ?_)
  rw [get?_insert, get?_insert, get?_insert, get?_insert]
  by_cases first : key = name
  · by_cases second : other = name
    · simp [first, second, agree (first.trans second.symm)]
    · simp [first, second]
  · simp [first]

namespace Staging

section Described

variable {settings : Settings} {registry : Registry} {root : Path} {config : BundleConfig}
  {files others : List Classified}

def OwnNames (files : List Classified) : Prop :=
  ∀ first ∈ files, ∀ second ∈ files,
    first.stagingName.text = second.stagingName.text → first.package = second.package

theorem withFile_comm (progress : Progress) {first second : Classified}
    (own : first.stagingName.text = second.stagingName.text → first.package = second.package) :
    (progress.withFile first).withFile second = (progress.withFile second).withFile first := by
  have owners := KeyMap.insert_comm progress.owners own
  have entries := KeyMap.insert_comm progress.config.entry
    (congrArg BundleConfig.entrySource : first.stagedPath = second.stagedPath → _)
  unfold Progress.withFile
  rw [owners]
  by_cases firstEntry : first.kind = .entry
  · by_cases secondEntry : second.kind = .entry
    · simp only [firstEntry, secondEntry, if_true, BundleConfig.addEntry, entries]
    · simp only [firstEntry, secondEntry, if_true, if_false]
  · simp only [firstEntry, if_false]

theorem withFiles_perm (permuted : files.Perm others) (own : OwnNames files)
    (progress : Progress) :
    files.foldl Progress.withFile progress = others.foldl Progress.withFile progress :=
  permuted.foldl_eq' (fun first early second late progress =>
    withFile_comm progress (own first early second late)) progress

theorem ownersOf_perm (permuted : files.Perm others) (own : OwnNames files) :
    ownersOf files = ownersOf others :=
  permuted.foldl_eq' (fun first early second late owners =>
    KeyMap.insert_comm owners (own first early second late)) KeyMap.empty

theorem batchOf_perm (permuted : files.Perm others) (own : OwnNames files) :
    batchOf settings registry root files config = batchOf settings registry root others config := by
  unfold batchOf manifestsFor
  rw [withFiles_perm permuted own, ownersOf_perm permuted own]

theorem ownNames_classify {inputs : List InputFile}
    (valid : ∀ file ∈ inputs, file.package.Valid) : OwnNames (inputs.map (classify settings)) := by
  intro first early second late same
  obtain ⟨input, given, rfl⟩ := List.mem_map.mp early
  obtain ⟨other, also, rfl⟩ := List.mem_map.mp late
  refine PackageId.stagingName_injective (valid input given) (valid other also) ?_
  rw [StagingName.mk.injEq]
  exact same

end Described

section Staged

variable {ready left : Disk} {names : List String} {place : RealPath} {settings : Settings}
  {registry : Registry} {files others : List Classified} {config : BundleConfig}
  {batch : StagedBatch}

theorem source_of_isFile {piece : Piece} (listed : piece ∈ files.flatMap Classified.pieces)
    (isFile : piece.IsFile) : ∃ file ∈ files, piece = file.sourcePiece := by
  obtain ⟨file, member, own⟩ := List.mem_flatMap.mp listed
  rcases List.mem_cons.mp own with rfl | source
  · exact absurd rfl isFile
  · split at source
    · exact ⟨file, member, List.mem_singleton.mp source⟩
    · cases source

theorem manifest_single {owners : KeyMap PackageId} {first second : Piece}
    (early : first ∈ (manifestsOf settings registry owners).map manifestPiece)
    (late : second ∈ (manifestsOf settings registry owners).map manifestPiece)
    (same : first.names = second.names) : first = second := by
  obtain ⟨entry, member, rfl⟩ := List.mem_map.mp early
  obtain ⟨other, also, rfl⟩ := List.mem_map.mp late
  have names : entry.1 = other.1 := by
    rw [StagingName.mk.injEq]
    exact (List.cons.inj same).1
  rw [List.inj_on_of_nodup_map (manifests_distinct owners) member also names]

theorem stage_perm (cleared : Cleared ready.tree names place)
    (proper : ∀ name ∈ names, IsProper name) (inside : names ≠ [])
    (ordinary : ∀ file ∈ files, file.IsOrdinary) (own : OwnNames files)
    (single : ∀ first ∈ files, ∀ second ∈ files, first.stagedPath = second.stagedPath →
      first = second) (permuted : files.Perm others)
    (staged : (stage settings registry (Path.ofReal names) files config).onDisk ready =
      (.ok batch, left)) :
    ∃ again, (stage settings registry (Path.ofReal names) others config).onDisk ready =
      (.ok batch, again) ∧ Twins left again := by
  have segments := segments_of_proper proper
  have ordinaryOthers : ∀ file ∈ others, file.IsOrdinary :=
    fun file listed => ordinary file (permuted.mem_iff.mpr listed)
  obtain ⟨rfl, accepted, described, pieces, top⟩ := (stage_ok_iff segments ordinary).mp staged
  obtain ⟨sources, put, manifests⟩ := Piece.putAll_append_ok_iff.mp pieces
  -- The sources are put in another order, and the manifests after them as before.
  obtain ⟨sourcesAgain, putAgain, twins⟩ := Piece.putAll_perm cleared proper inside
    (isNamed_sources ordinary) (Twins.refl ready)
    (permuted.flatMap_right Classified.pieces)
    (fun first early second late isFile isAlso same => by
      obtain ⟨file, member, rfl⟩ := source_of_isFile early isFile
      obtain ⟨other, also, rfl⟩ := source_of_isFile late isAlso
      rw [single file member other also (namesOf_injective same)]) put
  obtain ⟨clearedSources, -⟩ :=
    Piece.putAll_onto cleared proper inside (isNamed_sources ordinary) put
  obtain ⟨describedAgain, manifestsAgain, twinsDescribed⟩ := Piece.putAll_perm clearedSources proper
    inside (isNamed_manifests ordinary) twins (List.Perm.refl _)
    (fun _ early _ late _ _ same => manifest_single early late same) manifests
  obtain ⟨clearedDescribed, -⟩ := Piece.putAll_onto clearedSources proper inside
    (isNamed_manifests ordinary) manifests
  have same : batchOf settings registry (Path.ofReal names) files config =
      batchOf settings registry (Path.ofReal names) others config := batchOf_perm permuted own
  rw [same] at top ⊢
  have wrote := twinsDescribed.writeFile
    (Path.isAbsolute_div (Path.isAbsolute_ofReal names) manifestFile)
    (clearedDescribed.twin twinsDescribed).grounded
    (batchOf settings registry (Path.ofReal names) others config).manifest.fileText
  rw [top] at wrote
  rcases ends : (Files.write (Path.ofReal names / manifestFile) (batchOf settings registry
    (Path.ofReal names) others config).manifest.fileText).onDisk describedAgain with ⟨result, again⟩
  rw [ends] at wrote
  obtain rfl : _ = result := wrote.result
  refine ⟨again, (stage_ok_iff segments ordinaryOthers).mpr ⟨rfl,
    fun file listed => accepted file (permuted.mem_iff.mpr listed), describedAgain, ?_, ends⟩,
    wrote.twins⟩
  refine Piece.putAll_append_ok_iff.mpr ⟨sourcesAgain, putAgain, ?_⟩
  rw [← ownersOf_perm permuted own]
  exact manifestsAgain

end Staged

end Staging

section Rows

variable {ε α β : Type} {f : α → Except ε β} {row others : List α} {values : List β}

theorem mapM_perm (permuted : row.Perm others) (done : row.mapM f = .ok values) :
    ∃ same, others.mapM f = .ok same ∧ (row.zip values).Perm (others.zip same) := by
  have each := mapM_eq_ok_iff.mp done
  have entries : List.Forall₂ (fun x entry => entry.1 = x ∧ f x = .ok entry.2) row
      (row.zip values) := by
    clear permuted done
    induction each with
    | nil => exact .nil
    | cons first _ ih => exact .cons ⟨rfl, first⟩ ih
  obtain ⟨rows, kept, rearranged⟩ := List.perm_comp_forall₂ permuted.symm entries
  have again : rows.map Prod.fst = others ∧ others.mapM f = .ok (rows.map Prod.snd) := by
    rw [mapM_eq_ok_iff]
    clear rearranged permuted
    induction kept with
    | nil => exact ⟨rfl, .nil⟩
    | cons own _ ih => exact ⟨by simp [own.1, ih.1], .cons own.2 ih.2⟩
  refine ⟨rows.map Prod.snd, again.2, ?_⟩
  have zipped : others.zip (rows.map Prod.snd) = rows := by
    rw [← again.1, ← List.unzip_fst, ← List.unzip_snd, List.zip_unzip]
  rw [zipped]
  exact rearranged.symm

end Rows

namespace Staging

/-- Files of validated packages are told apart by their package and their name. -/
theorem stage_permuted {names : List String} {place : RealPath} {settings : Settings}
    {registry : Registry} {files others : List InputFile} {config : BundleConfig}
    {batch : StagedBatch} {ready left : Disk} (cleared : Cleared ready.tree names place)
    (proper : ∀ name ∈ names, IsProper name) (inside : names ≠ [])
    (ordinary : ∀ file ∈ files, file.IsOrdinary)
    (distinct : (files.map (fun file => (file.package, file.fileName))).Nodup)
    (permuted : files.Perm others)
    (staged : (stage settings registry (Path.ofReal names) (files.map (classify settings))
      config).onDisk ready = (.ok batch, left)) :
    ∃ again, (stage settings registry (Path.ofReal names) (others.map (classify settings))
      config).onDisk ready = (.ok batch, again) ∧ Twins left again := by
  refine stage_perm cleared proper inside ?_
    (ownNames_classify (fun file given => (ordinary file given).valid)) ?_
    (permuted.map (classify settings)) staged
  · intro file listed
    obtain ⟨input, given, rfl⟩ := List.mem_map.mp listed
    exact isOrdinary_classify settings (ordinary input given)
  · intro first early second late same
    obtain ⟨input, given, rfl⟩ := List.mem_map.mp early
    obtain ⟨other, also, rfl⟩ := List.mem_map.mp late
    obtain ⟨package, name⟩ := stagedPath_injective (ordinary input given) (ordinary other also) same
    rw [List.inj_on_of_nodup_map distinct given also (Prod.ext package name)]

/-- The order of the files decides neither whether a batch can be staged nor what is staged, and
stitching gives each file the same artifact in any order. -/
theorem staging_ignores_file_order {workdir : RealPath} {draft : Settings.Draft}
    {settings : Settings} {registry : Registry} {platform : Platform}
    {files others : List InputFile} {config : BundleConfig} {reset : Bool} {disk ready : Disk}
    (proper : ∀ name ∈ workdir, IsProper name) (built : draft.build workdir = .ok settings)
    (ordinary : ∀ file ∈ files, file.IsOrdinary)
    (distinct : (files.map (fun file => (file.package, file.fileName))).Nodup)
    (permuted : files.Perm others) (grounded : disk.tree.Grounded)
    (prepared : (prepare (settings.stagingRoot platform) reset).onDisk disk = (.ok (), ready)) :
    let staging (batch : List InputFile) := (stage settings registry (settings.stagingRoot platform)
      (batch.map (classify settings)) config).onDisk ready
    ((∃ batch left, staging files = (.ok batch, left)) ↔
      ∃ batch left, staging others = (.ok batch, left)) ∧
    (∀ batch left other again, staging files = (.ok batch, left) →
      staging others = (.ok other, again) →
        other = batch ∧ ∀ place, again.tree.get? place = left.tree.get? place) ∧
    ∀ (stitcher : Stitcher) (described : BundleConfig) (chunks after : Disk)
      (artifacts : List Artifact),
      (stitcher.stitch described (files.map (classify settings))).onDisk chunks =
        (.ok artifacts, after) →
      ∃ same, (stitcher.stitch described (others.map (classify settings))).onDisk chunks =
          (.ok same, after) ∧
        artifacts.length = files.length ∧ same.length = others.length ∧
        (files.zip artifacts).Perm (others.zip same) := by
  obtain ⟨names, properRoot, root⟩ :=
    stagingRoot_eq proper (Settings.build_accepted built) platform
  rw [root] at prepared ⊢
  obtain ⟨-, place, -, cleared, -⟩ := prepare_cleared properRoot grounded prepared
  have inside : names ++ [platform.dirName] ≠ [] := by simp
  intro staging
  refine ⟨⟨?_, ?_⟩, ?_, ?_⟩
  · rintro ⟨batch, left, staged⟩
    obtain ⟨again, restaged, -⟩ :=
      stage_permuted cleared properRoot inside ordinary distinct permuted staged
    exact ⟨batch, again, restaged⟩
  · rintro ⟨batch, left, staged⟩
    obtain ⟨again, restaged, -⟩ := stage_permuted cleared properRoot inside
      (fun file listed => ordinary file (permuted.mem_iff.mpr listed))
      ((permuted.map _).nodup_iff.mp distinct) permuted.symm staged
    exact ⟨batch, again, restaged⟩
  · intro batch left other again staged restaged
    obtain ⟨twin, same, twins⟩ :=
      stage_permuted cleared properRoot inside ordinary distinct permuted staged
    have equal := restaged.symm.trans same
    obtain ⟨rfl, rfl⟩ : other = batch ∧ again = twin := by simpa using equal
    exact ⟨rfl, fun place => congrFun twins.same.symm place⟩
  · intro stitcher described chunks after artifacts stitched
    simp only [Stitcher.stitch_onDisk, List.mapM_map, Prod.mk.injEq] at stitched ⊢
    obtain ⟨done, rfl⟩ := stitched
    obtain ⟨same, again, zipped⟩ := mapM_perm permuted done
    have lengths := (mapM_eq_ok_iff.mp done).length_eq
    exact ⟨same, ⟨again, rfl⟩, lengths.symm, (mapM_eq_ok_iff.mp again).length_eq.symm, zipped⟩

open Batch in
/-- A module of a package and one of the application, in both orders. -/
theorem two_modules_in_either_order : ∃ ready batch left again,
    (prepare (plainSettings.stagingRoot browser) false).onDisk ⟨emptyTree, []⟩ = (.ok (), ready) ∧
    (stage plainSettings .empty (plainSettings.stagingRoot browser)
      ([widgetModule, appModule].map (classify plainSettings))
      (startConfig plainSettings browser (plainSettings.stagingRoot browser))).onDisk ready =
      (.ok batch, left) ∧
    (stage plainSettings .empty (plainSettings.stagingRoot browser)
      ([appModule, widgetModule].map (classify plainSettings))
      (startConfig plainSettings browser (plainSettings.stagingRoot browser))).onDisk ready =
      (.ok batch, again) ∧
    ∀ place, again.tree.get? place = left.tree.get? place := by
  obtain ⟨ready, batch, left, prepared, staged, -⟩ := modules_passed
  obtain ⟨either, alike, -⟩ := staging_ignores_file_order (by simp) build_plainDraft
    isOrderly_modules.ordinary (by decide) (List.Perm.swap appModule widgetModule [])
    grounded_emptyTree prepared
  obtain ⟨other, again, restaged⟩ := either.mp ⟨batch, left, staged⟩
  obtain ⟨rfl, same⟩ := alike batch left other again staged restaged
  exact ⟨ready, other, left, again, prepared, staged, restaged, same⟩

end Staging

end PlatformBundle
