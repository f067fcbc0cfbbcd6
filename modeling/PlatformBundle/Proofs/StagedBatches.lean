import PlatformBundle.Proofs.ManifestFiles
import PlatformBundle.Proofs.PackageDirectories
import PlatformBundle.Proofs.StagedManifests
/-!
What a batch is once it is staged. Its entries, its staging names and its manifests are those that
its files call for, each from any file of the package, since no two packages share a staging name;
and the manifests on the disk are the ones of the batch. The files may be called what they will:
what is written under their names is written before the manifests, and no link is made by it.
-/

namespace PlatformBundle

namespace TopManifest

variable {names : List StagingName} {manifest : TopManifest}

theorem foldl_addPackage_tools :
    (names.foldl addPackage manifest).devDependencies = manifest.devDependencies := by
  induction names generalizing manifest with
  | nil => rfl
  | cons name rest ih => exact ih

theorem foldl_addPackage_get? (key : String) :
    (names.foldl addPackage manifest).dependencies.get? key =
      if ⟨key⟩ ∈ names then some (localPlace ⟨key⟩) else manifest.dependencies.get? key := by
  induction names generalizing manifest with
  | nil => simp
  | cons name rest ih =>
      rw [List.foldl_cons, ih]
      by_cases later : ⟨key⟩ ∈ rest
      · simp [later]
      · by_cases own : name.text = key
        · simp [addPackage, ← own]
        · have other : ⟨key⟩ ≠ name := by
            rintro rfl
            exact own rfl
          simp [later, addPackage, own, other]

end TopManifest

namespace Staging

section Described

variable {settings : Settings} {registry : Registry} {files : List Classified}
  {inputs : List InputFile}

theorem contains_ownersOf (name : String) :
    (ownersOf files).contains name = true ↔ ∃ file ∈ files, file.stagingName.text = name := by
  rw [KeyMap.contains, get?_ownersOf, Option.isSome_map, List.find?_isSome]
  simp

theorem get?_ownersOf_iff (valid : ∀ file ∈ inputs, file.package.Valid) {name : String}
    {owner : PackageId} :
    (ownersOf (inputs.map (classify settings))).get? name = some owner ↔
      ∃ file ∈ inputs, file.package = owner ∧ owner.stagingName.text = name := by
  rw [get?_ownersOf, Option.map_eq_some_iff]
  constructor
  · rintro ⟨file, found, rfl⟩
    obtain ⟨input, given, rfl⟩ :=
      List.mem_map.mp (List.mem_reverse.mp (List.mem_of_find?_eq_some found))
    have own := List.find?_some found
    exact ⟨input, given, rfl, of_decide_eq_true own⟩
  · rintro ⟨input, given, rfl, own⟩
    have listed : classify settings input ∈ (inputs.map (classify settings)).reverse :=
      List.mem_reverse.mpr (List.mem_map_of_mem given)
    have some : ((inputs.map (classify settings)).reverse.find?
        (fun file => file.stagingName.text = name)).isSome = true := by
      rw [List.find?_isSome]
      exact ⟨_, listed, decide_eq_true own⟩
    obtain ⟨file, found⟩ := Option.isSome_iff_exists.mp some
    refine ⟨file, found, ?_⟩
    obtain ⟨other, also, rfl⟩ :=
      List.mem_map.mp (List.mem_reverse.mp (List.mem_of_find?_eq_some found))
    have shares := List.find?_some found
    refine PackageId.stagingName_injective (valid other also) (valid input given) ?_
    rw [StagingName.mk.injEq, own]
    exact of_decide_eq_true shares

theorem contains_topManifest {name : String} :
    (topManifest settings ((manifestsOf settings registry (ownersOf files)).map
      Prod.fst)).dependencies.contains name =
      (manifestsFor settings registry files).contains name := by
  rw [Bool.eq_iff_iff, topManifest, KeyMap.contains, TopManifest.foldl_addPackage_get?,
    ← mem_manifestNames_iff]
  split
  · rename_i listed
    exact iff_of_true rfl listed
  · rename_i unlisted
    exact iff_of_false (by simp [TopManifest.ofTools]) unlisted

end Described

section OnDisk

variable {disk left : Disk} {names : List String} {place : RealPath} {settings : Settings}
  {registry : Registry} {files : List Classified} {config : BundleConfig} {batch : StagedBatch}

theorem stage_manifests (filled : names ≠ []) (proper : ∀ name ∈ names, IsProper name)
    (properFiles : ∀ file ∈ files, IsProper file.stagingName.text)
    (ready : Ready disk.tree names place)
    (staged : (stage settings registry (Path.ofReal names) files config).onDisk disk =
      (.ok batch, left)) :
    (∀ name manifest, batch.packages.get? name = some manifest →
      left.readText (Path.ofReal names / packagesDir / name / manifestFile) =
        .ok manifest.fileText) ∧
      left.readText (Path.ofReal names / manifestFile) = .ok batch.manifest.fileText := by
  obtain ⟨progress, sources, described, staging, manifests, top, -⟩ := stage_ok staged
  obtain ⟨packages, -, sameTop, -⟩ := stage_described staged
  have properNames : ∀ entry ∈ manifestsOf settings registry (ownersOf files),
      IsProper entry.1.text := manifests_proper properFiles
  have owners : progress.owners = ownersOf files := by
    rw [stageFiles_ok_eq staging, owners_withFiles]
  rw [owners] at manifests top
  have readySources := ready.grow
    (stageFiles_grown (Path.isAbsolute_ofReal names) ready.grounded staging)
  obtain ⟨grown, reads⟩ := writeManifests_written proper properNames (manifests_distinct _)
    readySources manifests
  have readyManifests := readySources.grow grown
  obtain ⟨grownTop, readTop⟩ := writeTop_written filled proper readyManifests top
  rw [← sameTop] at readTop
  refine ⟨?_, readTop⟩
  intro name manifest found
  rw [packages, KeyMap.get?_eq_some_iff, manifestsFor_entries] at found
  obtain ⟨⟨staging, other⟩, listed, same⟩ := List.mem_map.mp found
  cases same
  have properName := properNames _ listed
  have read := reads _ listed
  rw [manifestPath_eq (segments_of_proper proper) properName.toIsSegment] at read ⊢
  refine readText_below proper (proper_manifest properName) readyManifests grownTop.toGrows ?_ read
  intro same
  have length := congrArg List.length same
  simp at length

end OnDisk

theorem localPlace_text (name : StagingName) :
    TopManifest.localPlace name = "file:./packages/" ++ name.text := rfl

theorem hasManifest_iff {settings : Settings} {package : PackageId} :
    hasManifest settings package = true ↔
      package ≠ .application ∧ package ≠ settings.ownPackage := by
  cases package <;> simp [hasManifest, PackageId.isApplication]

section InMemory

variable {settings : Settings} {registry : Registry} {root : Path} {files : List InputFile}
  {config : BundleConfig} {batch : StagedBatch} {disk left : Disk}
  (staged : (stage settings registry root (files.map (classify settings)) config).onDisk disk =
    (.ok batch, left))
include staged

theorem stage_entry_iff (fresh : config.entry = KeyMap.empty) (key source : String) :
    batch.config.entry.get? key = some source ↔
      source = "./packages/" ++ key ∧ ∃ file ∈ files, kindOf settings file = .entry ∧
        file.package.stagingName.text ++ "/" ++ file.fileName = key := by
  obtain ⟨-, -, -, described⟩ := stage_described staged
  rw [described, entry_get?_iff fresh, BundleConfig.entrySource_text]
  simp [classify]

theorem stage_names_iff (name : String) : batch.stagingNames.contains name = true ↔
    ∃ file ∈ files, file.package.stagingName.text = name := by
  obtain ⟨-, stagingNames, -, -⟩ := stage_described staged
  rw [stagingNames, KeyMap.contains, KeyMap.get?_mapValues, Option.isSome_map]
  have owned : (ownersOf (files.map (classify settings))).contains name = true ↔ _ :=
    contains_ownersOf name
  rw [KeyMap.contains] at owned
  rw [owned]
  simp [classify]

theorem stage_packages_iff (valid : ∀ file ∈ files, file.package.Valid) (name : String)
    (manifest : PackageManifest) : batch.packages.get? name = some manifest ↔
      manifest.name = name ∧ manifest.version = "0.0.0" ∧ ∃ file ∈ files,
        file.package ≠ .application ∧ file.package ≠ settings.ownPackage ∧
        file.package.stagingName.text = name ∧
        manifest.dependencies = ((file.package.name.bind registry.dependencies?).getD
          KeyMap.empty).mapValues Constraint.normalize := by
  obtain ⟨packages, -, -, -⟩ := stage_described staged
  rw [packages, get?_manifestsFor]
  constructor
  · rintro ⟨owner, owned, has, rfl⟩
    obtain ⟨file, member, rfl, own⟩ := (get?_ownersOf_iff valid).mp owned
    obtain ⟨notApplication, notOwn⟩ := hasManifest_iff.mp has
    exact ⟨rfl, rfl, file, member, notApplication, notOwn, own, rfl⟩
  · rintro ⟨sameName, version, file, member, notApplication, notOwn, own, dependencies⟩
    refine ⟨file.package, (get?_ownersOf_iff valid).mpr ⟨file, member, rfl, own⟩,
      hasManifest_iff.mpr ⟨notApplication, notOwn⟩, ?_⟩
    obtain ⟨otherName, otherVersion, otherDependencies⟩ := manifest
    cases sameName
    cases version
    cases dependencies
    rfl

theorem stage_top_iff (name place : String) :
    batch.manifest.dependencies.get? name = some place ↔
      batch.packages.contains name = true ∧ place = "file:./packages/" ++ name := by
  obtain ⟨packages, -, manifest, -⟩ := stage_described staged
  rw [manifest, topManifest, TopManifest.foldl_addPackage_get?, packages, ← mem_manifestNames_iff,
    localPlace_text]
  split
  · rename_i member
    constructor
    · rintro ⟨⟩
      exact ⟨member, rfl⟩
    · rintro ⟨-, rfl⟩
      rfl
  · rename_i absent
    constructor
    · intro found
      cases found
    · rintro ⟨member, -⟩
      exact absurd member absent

theorem stage_tools : batch.manifest.devDependencies = settings.toolDependencies := by
  obtain ⟨-, -, manifest, -⟩ := stage_described staged
  rw [manifest, topManifest, TopManifest.foldl_addPackage_tools]
  rfl

end InMemory

/-- A staged batch is what its files call for, in memory and on the disk. -/
theorem stage_meets_batch {workdir : RealPath} {draft : Settings.Draft} {settings : Settings}
    {registry : Registry} {platform : Platform} {files : List InputFile} {config : BundleConfig}
    {batch : StagedBatch} {reset : Bool} {disk ready left : Disk}
    (proper : ∀ name ∈ workdir, IsProper name) (built : draft.build workdir = .ok settings)
    (named : ∀ file ∈ files, file.package.Valid ∧ file.package.stagingName.text ≠ "." ∧
      file.package.stagingName.text ≠ "..")
    (grounded : disk.tree.Grounded)
    (prepared : (prepare (settings.stagingRoot platform) reset).onDisk disk = (.ok (), ready))
    (unlinked : ready.ManifestUnlinked (settings.stagingRoot platform))
    (fresh : config.entry = KeyMap.empty)
    (staged : (stage settings registry (settings.stagingRoot platform)
      (files.map (classify settings)) config).onDisk ready = (.ok batch, left)) :
    (∀ key source, batch.config.entry.get? key = some source ↔
      source = "./packages/" ++ key ∧ ∃ file ∈ files, kindOf settings file = .entry ∧
        file.package.stagingName.text ++ "/" ++ file.fileName = key) ∧
    (∀ name, batch.stagingNames.contains name = true ↔
      ∃ file ∈ files, file.package.stagingName.text = name) ∧
    (∀ name manifest, batch.packages.get? name = some manifest ↔
      manifest.name = name ∧ manifest.version = "0.0.0" ∧ ∃ file ∈ files,
        file.package ≠ .application ∧ file.package ≠ settings.ownPackage ∧
        file.package.stagingName.text = name ∧
        manifest.dependencies = ((file.package.name.bind registry.dependencies?).getD
          KeyMap.empty).mapValues Constraint.normalize) ∧
    (∀ name place, batch.manifest.dependencies.get? name = some place ↔
      batch.packages.contains name = true ∧ place = "file:./packages/" ++ name) ∧
    batch.manifest.devDependencies = settings.toolDependencies ∧
    (∀ name manifest, batch.packages.get? name = some manifest → ∃ text,
      left.readText (settings.stagingRoot platform / packagesDir / name / manifestFile) =
        .ok text ∧ PackageManifest.read text = .ok manifest) ∧
    ∃ text, left.readText (settings.stagingRoot platform / manifestFile) = .ok text ∧
      TopManifest.read text = .ok batch.manifest := by
  have valid : ∀ file ∈ files, file.package.Valid := fun file member => (named file member).1
  have properFiles : ∀ file ∈ files.map (classify settings), IsProper file.stagingName.text := by
    intro file member
    obtain ⟨input, given, rfl⟩ := List.mem_map.mp member
    obtain ⟨validInput, notHere, notUp⟩ := named input given
    exact ⟨PackageId.isSegment_stagingName validInput, notHere, notUp⟩
  have onDisk : (∀ name manifest, batch.packages.get? name = some manifest →
      left.readText (settings.stagingRoot platform / packagesDir / name / manifestFile) =
        .ok manifest.fileText) ∧
      left.readText (settings.stagingRoot platform / manifestFile) =
        .ok batch.manifest.fileText := by
    obtain ⟨names, properRoot, root⟩ :=
      stagingRoot_eq proper (Settings.build_accepted built) platform
    rw [root] at prepared unlinked staged ⊢
    obtain ⟨place, isReady⟩ := ready_of_staged properRoot grounded prepared unlinked staged
    exact stage_manifests (by simp) properRoot properFiles isReady staged
  exact ⟨stage_entry_iff staged fresh, stage_names_iff staged, stage_packages_iff staged valid,
    stage_top_iff staged, stage_tools staged,
    fun name manifest found =>
      ⟨_, onDisk.1 name manifest found, PackageManifest.read_fileText manifest⟩,
    _, onDisk.2, TopManifest.read_fileText batch.manifest⟩

section Widgets

open Batch

def widgetRegistry : Registry :=
  ⟨KeyMap.empty, KeyMap.ofList [("acme:widgets", KeyMap.ofList [("lodash", "3.8.0")])]⟩

def endsInLink : Except IoCause Disk.Place → Bool
  | .ok (.present _ (.link _)) => true
  | _ => false

def passBrowser (settings : Settings) (files : List InputFile) : Work StagedBatch := do
  prepare (settings.stagingRoot browser) false
  stageBrowser settings files

theorem passBrowser_ok {settings : Settings} {files : List InputFile} {disk left : Disk}
    {batch : StagedBatch} (ended : (passBrowser settings files).onDisk disk = (.ok batch, left)) :
    ∃ ready, (prepare (settings.stagingRoot browser) false).onDisk disk = (.ok (), ready) ∧
      (stageBrowser settings files).onDisk ready = (.ok batch, left) := by
  obtain ⟨_, ready, prepared, staged⟩ :=
    (Work.onDisk_bind_ok_iff disk (fun _ => isPlain_stage settings .empty _ _ _)).mp ended
  exact ⟨ready, prepared, staged⟩

theorem modules_passed : ∃ ready batch left,
    (prepare plainRoot false).onDisk ⟨emptyTree, []⟩ = (.ok (), ready) ∧
    (stageBrowser plainSettings [widgetModule, appModule]).onDisk ready = (.ok batch, left) ∧
    ready.ManifestUnlinked plainRoot := by
  have runs : ((passBrowser plainSettings [widgetModule, appModule]).onDisk
      ⟨emptyTree, []⟩).1.isOk = true ∧
      endsInLink (((prepare plainRoot false).onDisk ⟨emptyTree, []⟩).2.locate false
        (plainRoot / manifestFile)) = false := by
    decide +kernel
  obtain ⟨passes, notLink⟩ := runs
  obtain ⟨batch, left, ended⟩ := Work.ok_of_isOk passes
  obtain ⟨ready, prepared, staged⟩ := passBrowser_ok ended
  refine ⟨ready, batch, left, prepared, staged, fun place target located => ?_⟩
  rw [show (prepare plainRoot false).onDisk ⟨emptyTree, []⟩ = (.ok (), ready) from prepared,
    located] at notLink
  cases notLink

/-- The manifest of a package names its dependency with a caret, in memory and on the disk. -/
theorem widget_manifest_is_staged : ∃ ready batch left,
    (prepare plainRoot false).onDisk ⟨emptyTree, []⟩ = (.ok (), ready) ∧
    (stage plainSettings widgetRegistry plainRoot ([widgetModule].map (classify plainSettings))
      (startConfig plainSettings browser plainRoot)).onDisk ready = (.ok batch, left) ∧
    ∃ manifest text, batch.packages.get? "acme_widgets" = some manifest ∧
      manifest.dependencies = KeyMap.ofList [("lodash", "^3.8.0")] ∧
      left.readText (plainRoot / packagesDir / "acme_widgets" / manifestFile) = .ok text ∧
      PackageManifest.read text = .ok manifest := by
  have prepares : ((prepare plainRoot false).onDisk ⟨emptyTree, []⟩).1.isOk = true ∧
      endsInLink (((prepare plainRoot false).onDisk ⟨emptyTree, []⟩).2.locate false
        (plainRoot / manifestFile)) = false := by
    decide +kernel
  have stages : ((stage plainSettings widgetRegistry plainRoot
      ([widgetModule].map (classify plainSettings))
      (startConfig plainSettings browser plainRoot)).onDisk
      ((prepare plainRoot false).onDisk ⟨emptyTree, []⟩).2).1.isOk = true := by
    decide +kernel
  rcases prepared : (prepare plainRoot false).onDisk ⟨emptyTree, []⟩ with ⟨_ | ⟨⟩, ready⟩
  · rw [prepared] at prepares
    cases prepares.1
  rw [prepared] at prepares stages
  have unlinked : ready.ManifestUnlinked plainRoot := by
    intro place target located
    have notLink := prepares.2
    rw [located] at notLink
    cases notLink
  rcases staged : (stage plainSettings widgetRegistry plainRoot
      ([widgetModule].map (classify plainSettings))
      (startConfig plainSettings browser plainRoot)).onDisk ready with ⟨_ | batch, left⟩
  · rw [staged] at stages
    cases stages
  have named : ∀ file ∈ [widgetModule], file.package.Valid ∧
      file.package.stagingName.text ≠ "." ∧ file.package.stagingName.text ≠ ".." := by
    intro file member
    rw [List.mem_singleton.mp member]
    exact ⟨isOrdinary_widgetModule.valid, isOrdinary_widgetModule.notHere,
      isOrdinary_widgetModule.notUp⟩
  obtain ⟨-, -, packages, -, -, written, -⟩ := stage_meets_batch (by simp) build_plainDraft named
    grounded_emptyTree prepared unlinked rfl staged
  have own : widgetModule.package.stagingName.text = "acme_widgets" := by decide
  have known : (widgetModule.package.name.bind widgetRegistry.dependencies?).getD KeyMap.empty =
      KeyMap.ofList [("lodash", "3.8.0")] := by decide
  have found := (packages "acme_widgets" ⟨"acme_widgets", "0.0.0",
    (KeyMap.ofList [("lodash", "3.8.0")]).mapValues Constraint.normalize⟩).mpr ⟨rfl, rfl,
      widgetModule, List.mem_cons_self, by decide, by decide, own, by rw [known]⟩
  obtain ⟨text, read, decoded⟩ := written _ _ found
  exact ⟨ready, batch, left, rfl, staged, _, text, found, rfl, read, decoded⟩

end Widgets

end Staging

end PlatformBundle
