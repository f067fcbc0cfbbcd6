import PlatformBundle.Proofs.ClosureCheck
import PlatformBundle.Proofs.StagedBatches
/-!
Staged packages beside third-party packages. The manifest at the top has the staged packages
installed into the directory where third-party dependencies and the tools are installed too, and
nothing keeps the names apart: a dependency with the name of a staged package counts as installed
as soon as that package is, and a package with the name of a tool stands beside the tool in the
manifest. These are the only two ways in which the names meet.
-/

namespace PlatformBundle

namespace Closure

/-- A directory that no staged package is installed as. -/
def Link.HasOwnTree (link : Link) (root : Path) (packages : KeyMap PackageManifest)
    (disk : Disk) : Prop :=
  disk.isDirectory (root / packagesDir / link.package / modulesDir / link.dependency) = true ∨
    disk.isDirectory (root / modulesDir / link.package / modulesDir / link.dependency) = true ∨
    disk.isDirectory (root / modulesDir / link.dependency) = true ∧
      packages.contains link.dependency = false

theorem isFound_iff {link : Link} {root : Path} {packages : KeyMap PackageManifest}
    {disk : Disk} : link.IsFound root disk ↔ link.HasOwnTree root packages disk ∨
      packages.contains link.dependency = true ∧
        disk.isDirectory (root / modulesDir / link.dependency) = true := by
  simp only [Link.IsFound, places, List.mem_cons, List.not_mem_nil, or_false,
    exists_eq_or_imp, exists_eq_left, Link.HasOwnTree]
  -- The directories are looked up nowhere below.
  generalize disk.isDirectory (root / packagesDir / link.package / modulesDir / link.dependency) =
    staged, disk.isDirectory (root / modulesDir / link.package / modulesDir / link.dependency) =
    installed, disk.isDirectory (root / modulesDir / link.dependency) = hoisted,
    packages.contains link.dependency = isLocal
  revert staged installed hoisted isLocal
  decide

/-- The check passes exactly when each dependency has a tree of its own or the name of a staged
package for which a directory stands at the top. -/
theorem verify_accepts_iff {root : Path} {packages : KeyMap PackageManifest} {disk left : Disk} :
    (verify root packages).onDisk disk = (.ok (), left) ↔ left = disk ∧
      ∀ package manifest dependency, packages.get? package = some manifest →
        manifest.dependencies.contains dependency = true →
        Link.HasOwnTree ⟨package, dependency⟩ root packages disk ∨
          packages.contains dependency = true ∧
            disk.isDirectory (root / modulesDir / dependency) = true := by
  constructor
  · intro verified
    obtain ⟨none, rfl⟩ := verify_ok verified
    refine ⟨rfl, fun package manifest dependency staged declared => ?_⟩
    exact isFound_iff.mp
      (found_of_none_absent none ⟨package, dependency⟩ (mem_links.mpr ⟨manifest, staged, declared⟩))
  · rintro ⟨rfl, found⟩
    have none : absentLinks root packages left = [] := by
      refine List.eq_nil_iff_forall_not_mem.mpr fun link member => ?_
      obtain ⟨listed, absent⟩ := mem_absentLinks.mp member
      obtain ⟨manifest, staged, declared⟩ := mem_links.mp listed
      exact absent (isFound_iff.mpr (found link.package manifest link.dependency staged declared))
    rw [verify_onDisk, if_pos none]

def lodashTree : FileTree :=
  (((FileTree.mk []).put ["r"] .directory).put ["r", "node_modules"] .directory).put
    ["r", "node_modules", "lodash"] .directory

def lodashPackages : KeyMap PackageManifest :=
  KeyMap.ofList [
    ("acme_widgets",
      .ofDependencies ⟨"acme_widgets"⟩ (KeyMap.ofList [("lodash", "1.0.0")])),
    ("lodash", .ofDependencies ⟨"lodash"⟩ KeyMap.empty)]

-- The staged package passes for the third-party package that the other one asks for.
theorem local_package_passes_for_dependency :
    (∃ left, (verify ⟨"/r"⟩ lodashPackages).onDisk ⟨lodashTree, []⟩ = (.ok (), left)) ∧
      ∃ link ∈ links lodashPackages,
        ¬ link.HasOwnTree ⟨"/r"⟩ lodashPackages ⟨lodashTree, []⟩ := by
  constructor
  · refine ⟨⟨lodashTree, []⟩, ?_⟩
    rw [verify_onDisk, if_pos (by decide +kernel)]
  · refine ⟨⟨"acme_widgets", "lodash"⟩, by decide +kernel, ?_⟩
    rintro (below | inside | ⟨-, apart⟩)
    · revert below
      decide +kernel
    · revert inside
      decide +kernel
    · revert apart
      decide +kernel

end Closure

namespace Staging

section Tools

variable {settings : Settings} {registry : Registry} {files : List InputFile}

theorem contains_manifestsFor (valid : ∀ file ∈ files, file.package.Valid) {name : String} :
    (manifestsFor settings registry (files.map (classify settings))).contains name = true ↔
      ∃ file ∈ files, file.package ≠ .application ∧ file.package ≠ settings.ownPackage ∧
        file.package.stagingName.text = name := by
  rw [KeyMap.contains_iff]
  constructor
  · rintro ⟨manifest, found⟩
    obtain ⟨owner, owned, has, -⟩ := get?_manifestsFor.mp found
    obtain ⟨file, member, rfl, own⟩ := (get?_ownersOf_iff valid).mp owned
    obtain ⟨notApplication, notOwn⟩ := hasManifest_iff.mp has
    exact ⟨file, member, notApplication, notOwn, own⟩
  · rintro ⟨file, member, notApplication, notOwn, own⟩
    exact ⟨_, get?_manifestsFor.mpr ⟨file.package, (get?_ownersOf_iff valid).mpr
      ⟨file, member, rfl, own⟩, hasManifest_iff.mpr ⟨notApplication, notOwn⟩, rfl⟩⟩

/-- The two maps of the manifest at the top share the names of the packages that are called as a
tool is, and no others. -/
theorem local_packages_among_tools {root : Path} {config : BundleConfig} {batch : StagedBatch}
    {disk left : Disk} (valid : ∀ file ∈ files, file.package.Valid)
    (staged : (stage settings registry root (files.map (classify settings)) config).onDisk disk =
      (.ok batch, left)) :
    (∃ described, (Files.write (root / manifestFile) batch.manifest.fileText).onDisk described =
      (.ok (), left)) ∧
    batch.manifest.devDependencies = settings.toolDependencies ∧
    (∀ key, batch.manifest.dependencies.contains key = true ∧
        batch.manifest.devDependencies.contains key = true ↔
      settings.toolDependencies.contains key = true ∧ ∃ file ∈ files,
        file.package ≠ .application ∧ file.package ≠ settings.ownPackage ∧
        file.package.stagingName.text = key) ∧
    ((∀ key, ¬ (batch.manifest.dependencies.contains key = true ∧
        batch.manifest.devDependencies.contains key = true)) ↔
      ∀ file ∈ files, settings.toolDependencies.contains file.package.stagingName.text = true →
        file.package = .application ∨ file.package = settings.ownPackage) := by
  obtain ⟨-, -, manifest, -⟩ := stage_described staged
  have written : ∃ described, (Files.write (root / manifestFile)
      batch.manifest.fileText).onDisk described = (.ok (), left) := by
    obtain ⟨progress, _, described, staging, -, top, -⟩ := stage_ok staged
    have owners : progress.owners = ownersOf (files.map (classify settings)) := by
      rw [stageFiles_ok_eq staging, owners_withFiles]
    rw [owners, ← manifest] at top
    exact ⟨described, top⟩
  have tools : batch.manifest.devDependencies = settings.toolDependencies := by
    rw [manifest, topManifest, TopManifest.foldl_addPackage_tools]
    rfl
  have shared : ∀ key, batch.manifest.dependencies.contains key = true ∧
      batch.manifest.devDependencies.contains key = true ↔
      settings.toolDependencies.contains key = true ∧ ∃ file ∈ files,
        file.package ≠ .application ∧ file.package ≠ settings.ownPackage ∧
        file.package.stagingName.text = key := by
    intro key
    rw [tools, and_comm, manifest, contains_topManifest, contains_manifestsFor valid]
  refine ⟨written, tools, shared, ?_⟩
  constructor
  · intro apart file member tool
    by_contra other
    obtain ⟨notApplication, notOwn⟩ := not_or.mp other
    exact apart _ ((shared _).mpr ⟨tool, file, member, notApplication, notOwn, rfl⟩)
  · intro apart key both
    obtain ⟨tool, file, member, notApplication, notOwn, rfl⟩ := (shared key).mp both
    exact (apart file member tool).elim notApplication notOwn

end Tools

section Webpack

open Batch

def toolingDraft : Settings.Draft := { plainDraft with toolDependencies := none }

def toolingSettings : Settings :=
  { plainSettings with toolDependencies := Settings.defaultToolDependencies }

theorem build_toolingDraft : toolingDraft.build [] = .ok toolingSettings := rfl

def webpackModule : InputFile := .ofSource (.package "webpack") "module.js" "p()" browser

theorem toolings_staged : ∀ files ∈ [[widgetModule], [webpackModule]], ∃ batch left,
    (stageBrowser toolingSettings files).onDisk ⟨emptyTree, []⟩ = (.ok batch, left) := by
  have runs : ∀ files ∈ [[widgetModule], [webpackModule]],
      ((stageBrowser toolingSettings files).onDisk ⟨emptyTree, []⟩).1.isOk = true := by
    decide +kernel
  exact fun files listed => Work.ok_of_isOk (runs files listed)

/-- The package `acme:widgets` and the tool `webpack` are told apart by their names. -/
theorem widgets_apart_from_tools : ∃ batch left,
    (∀ file ∈ [widgetModule], file.package.Valid) ∧
    (stageBrowser toolingSettings [widgetModule]).onDisk ⟨emptyTree, []⟩ =
      (.ok batch, left) ∧
    batch.manifest.dependencies.contains "acme_widgets" = true ∧
    batch.manifest.devDependencies.contains "webpack" = true ∧
    ∀ key, ¬ (batch.manifest.dependencies.contains key = true ∧
      batch.manifest.devDependencies.contains key = true) := by
  have valid : ∀ file ∈ [widgetModule], file.package.Valid := by
    intro file member
    rw [List.mem_singleton.mp member]
    exact isOrdinary_widgetModule.valid
  obtain ⟨batch, left, staged⟩ := toolings_staged [widgetModule] (by simp)
  obtain ⟨-, tools, -, apart⟩ := local_packages_among_tools valid staged
  obtain ⟨-, -, manifest, -⟩ := stage_described staged
  refine ⟨batch, left, valid, staged, ?_, ?_, apart.mpr ?_⟩
  · rw [manifest, contains_topManifest, contains_manifestsFor valid]
    exact ⟨widgetModule, List.mem_cons_self, by decide, by decide, by decide⟩
  · rw [tools]
    decide
  · decide

-- The manifest asks for the package at `packages/webpack` and for the tool under one name.
theorem package_named_as_tool :
    toolingDraft.build [] = .ok toolingSettings ∧ webpackModule.package.Valid ∧
    ∃ batch left,
      (stageBrowser toolingSettings [webpackModule]).onDisk ⟨emptyTree, []⟩ = (.ok batch, left) ∧
      batch.manifest.dependencies.get? "webpack" = some "file:./packages/webpack" ∧
      batch.manifest.devDependencies.get? "webpack" = some "^1.9.10" := by
  have valid : webpackModule.package.Valid := by
    rintro name ⟨⟩
    rfl
  obtain ⟨batch, left, staged⟩ := toolings_staged [webpackModule] (by simp)
  obtain ⟨-, -, manifest, -⟩ := stage_described staged
  have listed : (⟨"webpack"⟩ : StagingName) ∈ (manifestsOf toolingSettings .empty
      (ownersOf ([webpackModule].map (classify toolingSettings)))).map Prod.fst := by
    rw [mem_manifestNames_iff, contains_manifestsFor (by simpa using valid)]
    exact ⟨webpackModule, List.mem_cons_self, by decide, by decide, by decide⟩
  refine ⟨build_toolingDraft, valid, batch, left, staged, ?_, ?_⟩
  · rw [manifest, topManifest, TopManifest.foldl_addPackage_get?, if_pos listed]
    rfl
  · rw [manifest, topManifest, TopManifest.foldl_addPackage_tools]
    decide

end Webpack

end Staging

end PlatformBundle
