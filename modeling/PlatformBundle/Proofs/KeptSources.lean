import PlatformBundle.Proofs.EntryArtifacts
import PlatformBundle.Proofs.StagedBatches
/-!
Entries whose sources outlive the batch. After the sources come the manifests, and only two of them
can go over a source: the manifest of a package over an entry that is called as the manifest, which
the entry suffix of the settings may ask for, and the manifest at the top where it is a link. Every
other entry reads back as its source.
-/

namespace PlatformBundle.Staging

open FileTree Disk

section Sources

variable {settings : Settings} {registry : Registry} {platform : Platform}
  {files : List InputFile} {config : BundleConfig}

theorem not_mem_manifestNames (valid : ∀ file ∈ files, file.package.Valid) {file : InputFile}
    (member : file ∈ files)
    (bare : file.package = .application ∨ file.package = settings.ownPackage) :
    file.package.stagingName ∉ (manifestsOf settings registry
      ((files.map (classify settings)).foldl Progress.withFile
        ⟨KeyMap.empty, config⟩).owners).map Prod.fst := by
  rw [owners_withFiles]
  intro listed
  obtain ⟨manifest, found⟩ := KeyMap.contains_iff.mp (mem_manifestNames_iff.mp listed)
  obtain ⟨owner, owned, has, -⟩ := get?_manifestsFor.mp found
  obtain ⟨other, also, rfl, own⟩ := (get?_ownersOf_iff valid).mp owned
  have same : other.package = file.package :=
    PackageId.stagingName_injective (valid other also) (valid file member)
      (congrArg StagingName.mk own)
  obtain ⟨notApplication, notOwn⟩ := hasManifest_iff.mp has
  exact bare.elim (same ▸ notApplication) (same ▸ notOwn)

/-- Once a batch is staged, an entry holds its own source, where its name is not the one that the
manifest of its package is written under. -/
theorem entries_keep_sources {workdir : RealPath} {draft : Settings.Draft} {reset : Bool}
    {disk ready left : Disk} {batch : StagedBatch} (proper : ∀ name ∈ workdir, IsProper name)
    (built : draft.build workdir = .ok settings) (ordinary : ∀ file ∈ files, file.IsOrdinary)
    (distinct : (files.map (fun file => (file.package, file.fileName))).Nodup)
    (grounded : disk.tree.Grounded)
    (prepared : (prepare (settings.stagingRoot platform) reset).onDisk disk = (.ok (), ready))
    (unlinked : ready.ManifestUnlinked (settings.stagingRoot platform))
    (staged : (stage settings registry (settings.stagingRoot platform)
      (files.map (classify settings)) config).onDisk ready = (.ok batch, left)) :
    ∀ file ∈ files, kindOf settings file = .entry →
      (file.fileName = manifestFile →
        file.package = .application ∨ file.package = settings.ownPackage) →
      left.readText (settings.stagingRoot platform / packagesDir /
        (file.package.stagingName.text ++ "/" ++ file.fileName)) = .ok file.source := by
  obtain ⟨names, properRoot, root⟩ :=
    stagingRoot_eq proper (Settings.build_accepted built) platform
  rw [root] at prepared unlinked staged ⊢
  obtain ⟨place, isReady⟩ := ready_of_staged properRoot grounded prepared unlinked staged
  have ordinaryFiles : ∀ file ∈ files.map (classify settings), file.IsOrdinary := by
    intro file member
    obtain ⟨input, given, rfl⟩ := List.mem_map.mp member
    exact isOrdinary_classify settings (ordinary input given)
  have sources := stage_source (by simp) properRoot ordinaryFiles
    (stagedPaths_distinct ordinary distinct) isReady staged
  intro file member entry apart
  refine sources (classify settings file) (List.mem_map_of_mem member) entry fun called => ?_
  exact not_mem_manifestNames (fun other also => (ordinary other also).valid) member (apart called)

end Sources

section Widgets

open Batch

/-- Two entries of one name are there beside each other. -/
theorem modules_keep_sources : ∃ ready batch left,
    (prepare plainRoot false).onDisk ⟨emptyTree, []⟩ = (.ok (), ready) ∧
    (stageBrowser plainSettings [widgetModule, appModule]).onDisk ready = (.ok batch, left) ∧
    left.readText (plainRoot / packagesDir / "acme_widgets/module.js") = .ok "w()" ∧
    left.readText (plainRoot / packagesDir / "__app__/module.js") = .ok "a()" := by
  obtain ⟨ready, batch, left, prepared, staged, unlinked⟩ := modules_passed
  have keeps := entries_keep_sources (by simp) build_plainDraft isOrderly_modules.ordinary
    isOrderly_modules.distinct grounded_emptyTree prepared unlinked staged
  exact ⟨ready, batch, left, prepared, staged,
    keeps widgetModule (by simp) (by decide) (by decide),
    keeps appModule (by simp) (by decide) (by decide)⟩

def manifestDraft : Settings.Draft := { plainDraft with entrySuffix := some "package.json" }

def manifestSettings : Settings := { plainSettings with entrySuffix := "package.json" }

def manifestModule : InputFile := .ofSource (.package "acme:widgets") "package.json" "w()" browser

theorem passBrowser_differs (settings : Settings) (files : List InputFile) (tree : FileTree)
    (path : Path) (source : String)
    (runs : (((passBrowser settings files).onDisk ⟨tree, []⟩).1.isOk &&
      ((passBrowser settings files).onDisk ⟨tree, []⟩).2.readText path != .ok source) = true) :
    ∃ ready batch left,
      (prepare (settings.stagingRoot browser) false).onDisk ⟨tree, []⟩ = (.ok (), ready) ∧
      (stageBrowser settings files).onDisk ready = (.ok batch, left) ∧
      left.readText path ≠ .ok source := by
  obtain ⟨succeeds, differs⟩ := Bool.and_eq_true_iff.mp runs
  obtain ⟨batch, left, ended⟩ := Work.ok_of_isOk succeeds
  rw [ended] at differs
  obtain ⟨ready, prepared, staged⟩ := passBrowser_ok ended
  exact ⟨ready, batch, left, prepared, staged, bne_iff_ne.mp differs⟩

-- The manifest of the package goes over the first source, the one at the top over the second.
theorem manifests_replace_sources :
    (manifestDraft.build [] = .ok manifestSettings ∧ manifestModule.IsOrdinary ∧
      kindOf manifestSettings manifestModule = .entry ∧
      ∃ ready batch left,
        (prepare plainRoot false).onDisk ⟨emptyTree, []⟩ = (.ok (), ready) ∧
        (stageBrowser manifestSettings [manifestModule]).onDisk ready = (.ok batch, left) ∧
        left.readText (plainRoot / packagesDir / "acme_widgets/package.json") ≠
          .ok manifestModule.source) ∧
    (plainDraft.build [] = .ok plainSettings ∧ appModule.IsOrdinary ∧
      kindOf plainSettings appModule = .entry ∧ linkedTree.Grounded ∧
      ∃ ready batch left,
        (prepare plainRoot false).onDisk ⟨linkedTree, []⟩ = (.ok (), ready) ∧
        (stageBrowser plainSettings [appModule]).onDisk ready = (.ok batch, left) ∧
        left.readText (plainRoot / packagesDir / "__app__/module.js") ≠ .ok appModule.source) := by
  refine ⟨⟨rfl, ⟨isOrdinary_widgetModule.valid, isOrdinary_widgetModule.notHere,
    isOrdinary_widgetModule.notUp, by decide⟩, by decide, ?_⟩,
    build_plainDraft, isOrdinary_appModule, by decide, grounded_linkedTree, ?_⟩
  · exact passBrowser_differs manifestSettings [manifestModule] emptyTree
      (plainRoot / packagesDir / "acme_widgets/package.json") manifestModule.source
      (by decide +kernel)
  · exact passBrowser_differs plainSettings [appModule] linkedTree
      (plainRoot / packagesDir / "__app__/module.js") appModule.source (by decide +kernel)

end Widgets

end PlatformBundle.Staging
