import Mathlib.Data.List.Induction
import PlatformBundle.Proofs.KeyMaps
import PlatformBundle.Proofs.StageSteps
/-!
The manifests that a batch calls for. Each staging name belongs to the package of the last file
that is staged under it, and the packages that are neither the application nor the own package have
a manifest each, with the dependencies that the registry declares for them. The entries of the
bundle are those of the files.
-/

namespace PlatformBundle.Staging

/-- Who owns each staging name of some files, and of two owners the later. -/
def ownersOf (files : List Classified) : KeyMap PackageId :=
  files.foldl (fun owners file => owners.insert file.stagingName.text file.package) KeyMap.empty

/-- The manifests of the packages of some files, by staging name. -/
def manifestsFor (settings : Settings) (registry : Registry) (files : List Classified) :
    KeyMap PackageManifest :=
  KeyMap.ofList ((manifestsOf settings registry (ownersOf files)).map
    (fun entry => (entry.1.text, entry.2)))

variable {settings : Settings} {registry : Registry} {files : List Classified}

theorem withFile_owners (files : List Classified) (progress : Progress) :
    (files.foldl Progress.withFile progress).owners =
      files.foldl (fun owners file => owners.insert file.stagingName.text file.package)
        progress.owners := by
  induction files generalizing progress with
  | nil => rfl
  | cons file rest ih => exact ih (progress.withFile file)

theorem owners_withFiles (files : List Classified) (config : BundleConfig) :
    (files.foldl Progress.withFile ⟨KeyMap.empty, config⟩).owners = ownersOf files :=
  withFile_owners files ⟨KeyMap.empty, config⟩

theorem entry_get?_iff {progress : Progress} (fresh : progress.config.entry = KeyMap.empty)
    (key source : String) :
    (files.foldl Progress.withFile progress).config.entry.get? key = some source ↔
      source = BundleConfig.entrySource key ∧
        ∃ file ∈ files, file.kind = .entry ∧ file.stagedPath = key := by
  induction files using List.reverseRecOn with
  | nil => simp [fresh]
  | append_singleton front last ih =>
      rw [List.foldl_append, List.foldl_cons, List.foldl_nil, withFile_entry]
      by_cases own : last.kind = .entry ∧ last.stagedPath = key
      · rw [if_pos own]
        constructor
        · rintro ⟨⟩
          exact ⟨rfl, last, by simp, own⟩
        · rintro ⟨rfl, -⟩
          rfl
      · rw [if_neg own, ih]
        constructor
        · rintro ⟨same, file, member, entry⟩
          exact ⟨same, file, List.mem_append_left _ member, entry⟩
        · rintro ⟨same, file, member, entry⟩
          rcases List.mem_append.mp member with early | late
          · exact ⟨same, file, early, entry⟩
          · rw [List.mem_singleton.mp late] at entry
            exact absurd entry own

theorem get?_ownersOf (files : List Classified) (name : String) :
    (ownersOf files).get? name =
      (files.reverse.find? (fun file => file.stagingName.text = name)).map Classified.package := by
  induction files using List.reverseRecOn with
  | nil => rfl
  | append_singleton front last ih =>
      have added : ownersOf (front ++ [last]) =
          (ownersOf front).insert last.stagingName.text last.package := by
        rw [ownersOf, List.foldl_append]
        rfl
      rw [added, KeyMap.get?_insert, List.reverse_append, List.reverse_singleton,
        List.singleton_append, List.find?_cons]
      by_cases own : last.stagingName.text = name
      · simp [own]
      · simp [own, ih]

theorem manifests_ascending (owners : KeyMap PackageId) :
    ((manifestsOf settings registry owners).map (fun entry => (entry.1.text, entry.2))).Pairwise
      (fun a b => a.1 < b.1) := by
  rw [manifestsOf, List.map_map]
  refine List.pairwise_map.mpr ?_
  exact owners.ascending.filter _

theorem manifestsFor_entries : (manifestsFor settings registry files).entries =
    (manifestsOf settings registry (ownersOf files)).map (fun entry => (entry.1.text, entry.2)) :=
  KeyMap.entries_ofList (manifests_ascending _)

theorem get?_manifestsFor {name : String} {manifest : PackageManifest} :
    (manifestsFor settings registry files).get? name = some manifest ↔
      ∃ owner, (ownersOf files).get? name = some owner ∧ hasManifest settings owner = true ∧
        manifest = packageManifest registry ⟨name⟩ owner := by
  rw [manifestsFor, KeyMap.get?_ofList (manifests_ascending _), manifestsOf, List.map_map,
    List.mem_map]
  constructor
  · rintro ⟨⟨key, owner⟩, kept, same⟩
    obtain ⟨listed, has⟩ := List.mem_filter.mp kept
    cases same
    exact ⟨owner, KeyMap.get?_eq_some_iff.mpr listed, has, rfl⟩
  · rintro ⟨owner, found, has, rfl⟩
    exact ⟨(name, owner), List.mem_filter.mpr ⟨KeyMap.get?_eq_some_iff.mp found, has⟩, rfl⟩

theorem mem_manifestNames_iff {name : String} :
    ⟨name⟩ ∈ (manifestsOf settings registry (ownersOf files)).map Prod.fst ↔
      (manifestsFor settings registry files).contains name = true := by
  rw [← KeyMap.mem_keys_iff, KeyMap.keys, manifestsFor_entries, List.map_map, List.mem_map,
    List.mem_map]
  constructor
  · rintro ⟨entry, member, same⟩
    exact ⟨entry, member, congrArg StagingName.text same⟩
  · rintro ⟨entry, member, same⟩
    exact ⟨entry, member, congrArg StagingName.mk same⟩

theorem contains_packageManifest (name : StagingName) (owner : PackageId) (dependency : String) :
    (packageManifest registry name owner).dependencies.contains dependency =
      (dependenciesOf registry owner).contains dependency := by
  simp [packageManifest, PackageManifest.ofDependencies, KeyMap.contains]

theorem stage_described {root : Path} {config : BundleConfig} {batch : StagedBatch}
    {disk left : Disk}
    (staged : (stage settings registry root files config).onDisk disk = (.ok batch, left)) :
    batch.packages = manifestsFor settings registry files ∧
      batch.stagingNames = (ownersOf files).mapValues (fun _ => ()) ∧
      batch.manifest = topManifest settings
        ((manifestsOf settings registry (ownersOf files)).map Prod.fst) ∧
      batch.config = (files.foldl Progress.withFile ⟨KeyMap.empty, config⟩).config := by
  obtain ⟨progress, sources, described, staging, -, -, rfl⟩ := stage_steps_iff.mp staged
  obtain rfl := stageFiles_ok_eq staging
  rw [Progress.batch, owners_withFiles]
  exact ⟨rfl, rfl, rfl, rfl⟩

theorem withFiles_places (files : List Classified) (progress : Progress) :
    (files.foldl Progress.withFile progress).config.outputPath = progress.config.outputPath ∧
      (files.foldl Progress.withFile progress).config.sharedChunk =
        progress.config.sharedChunk := by
  induction files generalizing progress with
  | nil => exact ⟨rfl, rfl⟩
  | cons file rest ih =>
      obtain ⟨output, shared⟩ := ih (progress.withFile file)
      exact ⟨output.trans (withFile_outputPath file progress),
        shared.trans (withFile_sharedChunk file progress)⟩

theorem stage_places {root : Path} {files : List Classified} {config : BundleConfig}
    {batch : StagedBatch}
    (staged : (stage settings registry root files config).onDisk disk = (.ok batch, left)) :
    batch.config.outputPath = config.outputPath ∧
      batch.config.sharedChunk = config.sharedChunk := by
  obtain ⟨-, -, -, described⟩ := stage_described staged
  rw [described]
  exact withFiles_places files ⟨KeyMap.empty, config⟩

end PlatformBundle.Staging
