import Mathlib.Data.List.TakeWhile
import PlatformBundle.Proofs.DiskGrowth
import PlatformBundle.Proofs.EntryArtifacts
import PlatformBundle.Proofs.RootNames
import PlatformBundle.Proofs.StagedSources
/-!
The directories of the packages in a staging root. A name that has passed the check may still be
`.` or `..`: the directory of the first is the one that holds all packages, and the directory of
the second is the staging root itself. Every other package has a directory of its own below
`packages`, and no two packages share one. This holds whatever the files of the packages are
called, since nothing that staging does changes where a path leads.
-/

namespace PlatformBundle

open FileTree Disk

section MakingDirectories

variable {disk left : Disk} {names more : List String} {last : String} {place : RealPath}

theorem createDirs_leads (segments : ∀ name ∈ names ++ [last], IsSegment name)
    (inside : (Path.ofReal (names ++ [last])).parent ≠ none) (grounded : disk.tree.Grounded)
    (made : disk.createDirs (Path.ofReal (names ++ [last])) = (.ok (), left)) :
    checkText (Path.ofReal (names ++ [last])).text = .ok () ∧
      ∃ place, LeadsTo left.tree (names ++ [last]) place := by
  have absolute := Path.isAbsolute_ofReal (names ++ [last])
  have ending {middle : Disk} (groundedMiddle : middle.tree.Grounded)
      (ends : middle.makeDirIfMissing (Path.ofReal (names ++ [last])) = (.ok (), left)) :
      checkText (Path.ofReal (names ++ [last])).text = .ok () ∧
        ∃ place, LeadsTo left.tree (names ++ [last]) place := by
    have reached : Grown (fun _ => True) middle.tree left.tree ∧ _ :=
      makeDirIfMissing_leads segments groundedMiddle ends
    obtain ⟨-, _, place, -, leads, -⟩ := reached
    exact ⟨checkText_of_makeDirIfMissing segments ends, place, leads⟩
  obtain ⟨above, parent⟩ := Option.ne_none_iff_exists'.mp inside
  have filled : (Path.ofReal (names ++ [last])).text.isEmpty = false := by
    rw [← Bool.not_eq_true, String.isEmpty_iff, ← String.toList_inj, Path.toList_ofReal]
    simp
  rw [createDirs, ancestors, ancestorsUpTo, filled, parent] at made
  simp only [Bool.false_eq_true, if_false] at made
  rcases makeFrom_cons_ok made with atOnce | ⟨-, middle, makeAbove, make⟩
  · exact ending grounded atOnce
  · have grown := makeFrom_grown (fun _ => True)
      (ancestorsUpTo_absolute _ (Path.isAbsolute_parent absolute parent)) grounded makeAbove
    exact ending grown.grounded make

theorem parent_ofReal_ne_none (segments : ∀ name ∈ names, IsSegment name) {name : String}
    (listed : name ∈ names) (proper : IsProper name) : (Path.ofReal names).parent ≠ none := by
  intro none
  rw [Path.parent, Path.pieces_ofReal (List.ne_nil_of_mem listed) segments] at none
  dsimp only at none
  split at none
  · rename_i silent
    have all := List.dropWhile_eq_nil_iff.mp silent name.toList (by simpa using ⟨name, listed, rfl⟩)
    rw [proper.notSilent] at all
    cases all
  · split at none <;> cases none

end MakingDirectories

namespace Staging

section Growth

variable {disk left : Disk} {settings : Settings} {root : Path}

theorem stageFiles_makes_directories {files : List Classified} {progress after : Progress}
    (absolute : root.isAbsolute = true) (grounded : disk.tree.Grounded)
    (staged : (stageFiles settings root progress files).onDisk disk = (.ok after, left)) :
    ∀ file ∈ files, ∃ before made, Grown (fun _ => False) disk.tree before.tree ∧
      (Files.makeDir (root / packagesDir / file.stagingName.text)).onDisk before = (.ok (), made) ∧
      Grown (fun _ => False) made.tree left.tree := by
  induction files generalizing disk progress with
  | nil => simp
  | cons file rest ih =>
      obtain ⟨middle, first, others⟩ := stageFiles_cons_ok staged
      obtain ⟨made, make, grownMade, grown⟩ := stageFile_grown absolute grounded first
      have grownRest := stageFiles_grown absolute grown.grounded others
      intro other member
      rcases List.mem_cons.mp member with rfl | later
      · exact ⟨disk, made, .refl _ grounded, make, grown.trans grownRest⟩
      · obtain ⟨before, madeLater, reached, makeLater, ends⟩ :=
          ih grown.grounded others other later
        exact ⟨before, madeLater, ((grownMade _).trans grown).trans reached, makeLater, ends⟩

theorem stage_makes_directories {registry : Registry} {files : List Classified}
    {config : BundleConfig} {batch : StagedBatch} (absolute : root.isAbsolute = true)
    (grounded : disk.tree.Grounded)
    (staged : (stage settings registry root files config).onDisk disk = (.ok batch, left)) :
    ∀ file ∈ files, ∃ before made, Grown (fun _ => False) disk.tree before.tree ∧
      (Files.makeDir (root / packagesDir / file.stagingName.text)).onDisk before = (.ok (), made) ∧
      Grown (fun _ => False) made.tree left.tree := by
  obtain ⟨progress, sources, described, staging, manifests, top, -⟩ := stage_ok staged
  have grownSources := stageFiles_grown absolute grounded staging
  have grownManifests := writeManifests_grows absolute grownSources.grounded manifests
  have onward := grownManifests.trans (Files.write_grown
    (Path.isAbsolute_div absolute manifestFile) grownManifests.grounded top)
  intro file member
  obtain ⟨before, made, reached, make, ends⟩ :=
    stageFiles_makes_directories absolute grounded staging file member
  exact ⟨before, made, reached, make, ends.trans onward⟩

end Growth

end Staging

namespace PackageId

/-- Where the directory of a package is, when the one that holds all packages is at `top`. -/
def directory (top : RealPath) (package : PackageId) : RealPath :=
  Path.spelled top ⟨package.stagingName.text⟩

theorem spelled_here (top : RealPath) : Path.spelled top ⟨"."⟩ = top := rfl

theorem spelled_up (top : RealPath) : Path.spelled top ⟨".."⟩ = top.dropLast := rfl

theorem spelled_name (top : RealPath) {name : String} (proper : IsProper name) :
    Path.spelled top ⟨name⟩ = top ++ [name] := by
  rw [Path.spelled, Path.components_of_name proper]
  rfl

theorem valid_here : (PackageId.package ".").Valid := by
  rintro name ⟨⟩
  rfl

theorem valid_up : (PackageId.package "..").Valid := by
  rintro name ⟨⟩
  rfl

theorem directory_cases {package : PackageId} (valid : package.Valid) :
    package = .package "." ∨ package = .package ".." ∨
      package ≠ .package "." ∧ package ≠ .package ".." ∧ IsProper package.stagingName.text := by
  by_cases here : package = .package "."
  · exact Or.inl here
  · by_cases up : package = .package ".."
    · exact Or.inr (Or.inl up)
    · refine Or.inr (Or.inr ⟨here, up, isSegment_stagingName valid, ?_, ?_⟩)
      · intro same
        exact here (stagingName_injective valid valid_here (congrArg StagingName.mk same))
      · intro same
        exact up (stagingName_injective valid valid_up (congrArg StagingName.mk same))

theorem isChild_directory_iff {top : RealPath} {package : PackageId} (valid : package.Valid) :
    (∃ name, package.directory top = top ++ [name]) ↔
      package ≠ .package "." ∧ package ≠ .package ".." := by
  rcases directory_cases valid with rfl | rfl | ⟨notHere, notUp, proper⟩
  · have same : (PackageId.package ".").directory top = top := spelled_here top
    simp [same]
  · have above : (PackageId.package "..").directory top = top.dropLast := spelled_up top
    constructor
    · rintro ⟨name, child⟩
      have length := congrArg List.length (above.symm.trans child)
      rw [List.length_dropLast, List.length_append, List.length_singleton] at length
      omega
    · rintro ⟨-, other⟩
      exact absurd rfl other
  · exact ⟨fun _ => ⟨notHere, notUp⟩, fun _ => ⟨_, spelled_name top proper⟩⟩

theorem directory_proper {top : RealPath} {package : PackageId} (valid : package.Valid)
    {name : String} (child : package.directory top = top ++ [name]) :
    package.stagingName.text = name := by
  obtain ⟨notHere, notUp⟩ := (isChild_directory_iff valid).mp ⟨name, child⟩
  rcases directory_cases valid with here | up | ⟨-, -, proper⟩
  · exact absurd here notHere
  · exact absurd up notUp
  · rw [directory, spelled_name top proper] at child
    simpa using child

theorem directory_injective {top : RealPath} {first second : PackageId} (filled : top ≠ [])
    (left : first.Valid) (right : second.Valid)
    (same : first.directory top = second.directory top) : first = second := by
  have apart : top ≠ top.dropLast := by
    intro equal
    have length := congrArg List.length equal
    have inside := List.length_pos_of_ne_nil filled
    rw [List.length_dropLast] at length
    omega
  by_cases child : ∃ name, second.directory top = top ++ [name]
  · obtain ⟨name, child⟩ := child
    have names := (directory_proper left (same.trans child)).trans
      (directory_proper right child).symm
    exact stagingName_injective left right (congrArg StagingName.mk names)
  · have childless : ¬ ∃ name, first.directory top = top ++ [name] := by rwa [same]
    rw [isChild_directory_iff left] at childless
    rw [isChild_directory_iff right] at child
    rcases directory_cases left with rfl | rfl | ⟨notHere, notUp, -⟩
    · rcases directory_cases right with rfl | rfl | ⟨notHere, notUp, -⟩
      · rfl
      · exact absurd same apart
      · exact absurd ⟨notHere, notUp⟩ child
    · rcases directory_cases right with rfl | rfl | ⟨notHere, notUp, -⟩
      · exact absurd same.symm apart
      · rfl
      · exact absurd ⟨notHere, notUp⟩ child
    · exact absurd ⟨notHere, notUp⟩ childless

theorem leadsTo_directory {tree : FileTree} {names : List String} {place found : RealPath}
    {package : PackageId} (valid : package.Valid) (cleared : Cleared tree names place)
    (leads : LeadsTo tree (names ++ [packagesDir] ++ [package.stagingName.text]) found) :
    LeadsTo tree (names ++ [packagesDir]) (place ++ [packagesDir]) ∧
      found = package.directory (place ++ [packagesDir]) := by
  obtain ⟨top, leadsTop⟩ := leads.front (List.cons_ne_nil package.stagingName.text [])
  have same : top = place ++ [packagesDir] :=
    cleared.leads.spot_of_linkless leadsTop (by simpa using isProper_packagesDir) cleared.sources
  rw [same] at leadsTop
  refine ⟨leadsTop, ?_⟩
  rcases directory_cases valid with rfl | rfl | ⟨-, -, proper⟩
  · exact leads.unique leadsTop.here
  · exact leads.unique leadsTop.up
  · rw [directory, spelled_name _ proper]
    exact leadsTop.spot_of_linkless leads (by simpa using proper) (cleared.sources.below _)

theorem makeDir_leads {disk left : Disk} {names : List String} {place : RealPath}
    {package : PackageId} (valid : package.Valid) (segments : ∀ name ∈ names, IsSegment name)
    (cleared : Cleared disk.tree names place)
    (made : (Files.makeDir (Path.ofReal names / packagesDir / package.stagingName.text)).onDisk
      disk = (.ok (), left)) :
    checkText (Path.ofReal (names ++ [packagesDir] ++ [package.stagingName.text])).text = .ok () ∧
      LeadsTo left.tree (names ++ [packagesDir]) (place ++ [packagesDir]) ∧
      LeadsTo left.tree (names ++ [packagesDir] ++ [package.stagingName.text])
        (package.directory (place ++ [packagesDir])) := by
  have inner := segments_append_one segments isProper_packagesDir.toIsSegment
  have outer := segments_append_one inner (isSegment_stagingName valid)
  have inside : (Path.ofReal (names ++ [packagesDir] ++
      [package.stagingName.text])).parent ≠ none :=
    parent_ofReal_ne_none outer (show packagesDir ∈ _ by simp) isProper_packagesDir
  rw [Path.ofReal_div_name segments isProper_packagesDir.toIsSegment,
    Path.ofReal_div_name inner (isSegment_stagingName valid), Files.makeDir_ok_iff] at made
  obtain ⟨checked, found, leads⟩ := createDirs_leads outer inside cleared.grounded made
  have grown := createDirs_grown (fun _ => True) (Path.isAbsolute_ofReal _) cleared.grounded made
  obtain ⟨leadsTop, rfl⟩ := leadsTo_directory valid (cleared.grow grown) leads
  exact ⟨checked, leadsTop, leads⟩

end PackageId

namespace Staging

/-- After a batch is staged, the path of each package's directory leads to a place that its name
alone decides: a direct child of the directory of all packages, or that directory itself for `.`,
or the staging root for `..`. Two packages never have one place. -/
theorem package_directories_apart {workdir : RealPath} {draft : Settings.Draft}
    {settings : Settings} {registry : Registry} {platform : Platform} {files : List InputFile}
    {config : BundleConfig} {batch : StagedBatch} {reset : Bool} {disk ready left : Disk}
    (proper : ∀ name ∈ workdir, IsProper name) (built : draft.build workdir = .ok settings)
    (valid : ∀ file ∈ files, file.package.Valid) (grounded : disk.tree.Grounded)
    (prepared : (prepare (settings.stagingRoot platform) reset).onDisk disk = (.ok (), ready))
    (staged : (stage settings registry (settings.stagingRoot platform)
      (files.map (classify settings)) config).onDisk ready = (.ok batch, left)) :
    ∃ top : RealPath,
      (∀ file ∈ files,
        left.locate true (settings.stagingRoot platform) =
            .ok (.present top.dropLast .directory) ∧
          left.locate true (settings.stagingRoot platform / packagesDir) =
            .ok (.present top .directory) ∧
          left.locate true (settings.stagingRoot platform / packagesDir /
              file.package.stagingName.text) =
            .ok (.present (file.package.directory top) .directory)) ∧
      (∀ package : PackageId, package.Valid →
        ((∃ name, package.directory top = top ++ [name]) ↔
          package ≠ .package "." ∧ package ≠ .package "..")) ∧
      (PackageId.package ".").directory top = top ∧
      (PackageId.package "..").directory top = top.dropLast ∧
      ∀ first second : PackageId, first.Valid → second.Valid → first ≠ second →
        first.directory top ≠ second.directory top := by
  obtain ⟨names, properRoot, root⟩ :=
    stagingRoot_eq proper (Settings.build_accepted built) platform
  rw [root] at prepared staged ⊢
  obtain ⟨-, place, -, cleared, -⟩ := prepare_cleared properRoot grounded prepared
  have filled : names ++ [platform.dirName] ≠ [] := by simp
  generalize names ++ [platform.dirName] = names at *
  have segments := segments_of_proper properRoot
  have inner := segments_append_one segments isProper_packagesDir.toIsSegment
  have made := stage_makes_directories (Path.isAbsolute_ofReal names) cleared.grounded staged
  refine ⟨place ++ [packagesDir], ?_, fun package => PackageId.isChild_directory_iff,
    PackageId.spelled_here _, PackageId.spelled_up _, ?_⟩
  · intro file member
    have validFile := valid file member
    have outer := segments_append_one inner (PackageId.isSegment_stagingName validFile)
    obtain ⟨before, after, reached, make, grown⟩ := made _ (List.mem_map_of_mem member)
    have clearedBefore := cleared.grow reached
    obtain ⟨checked, leadsTop, leads⟩ :=
      PackageId.makeDir_leads validFile segments clearedBefore make
    have clearedLeft := (clearedBefore.grow (Files.makeDir_grown (fun _ => True)
      (Path.isAbsolute_div (Path.isAbsolute_div (Path.isAbsolute_ofReal names) _) _)
      clearedBefore.grounded make)).grow grown
    have checkedTop := checkText_front (by simp) checked
    rw [Path.ofReal_div_name segments isProper_packagesDir.toIsSegment,
      Path.ofReal_div_name inner (PackageId.isSegment_stagingName validFile)]
    refine ⟨(locate_ok_iff segments).mpr ⟨checkText_front filled checkedTop, ?_⟩,
      (locate_ok_iff inner).mpr ⟨checkedTop, leadsTop.grow grown.toGrows⟩,
      (locate_ok_iff outer).mpr ⟨checked, leads.grow grown.toGrows⟩⟩
    rw [List.dropLast_concat]
    exact clearedLeft.leads
  · intro first second left right differ same
    exact differ (PackageId.directory_injective (by simp) left right same)

section UpwardPackage

open Batch

def upModule : InputFile := .ofSource (.package "..") "module.js" "u()" browser

def plainRoot : Path := plainSettings.stagingRoot browser

def stageBrowser (settings : Settings) (files : List InputFile) : Work StagedBatch :=
  stage settings .empty (settings.stagingRoot browser) (files.map (classify settings))
    (startConfig settings browser (settings.stagingRoot browser))

theorem modules_staged : ∃ batch left,
    (stageBrowser plainSettings [widgetModule, appModule]).onDisk ⟨emptyTree, []⟩ =
      (.ok batch, left) :=
  Work.ok_of_isOk (by decide +kernel)

/-- A file of the package `..` has the staging root for its package's directory. -/
theorem directory_of_up_is_root : ∃ ready batch left,
    (prepare plainRoot false).onDisk ⟨emptyTree, []⟩ = (.ok (), ready) ∧
    (stage plainSettings .empty plainRoot ([upModule].map (classify plainSettings))
      (startConfig plainSettings browser plainRoot)).onDisk ready = (.ok batch, left) ∧
    left.locate true (plainRoot / packagesDir / "..") = left.locate true plainRoot := by
  have prepares : ((prepare plainRoot false).onDisk ⟨emptyTree, []⟩).1.isOk = true := by
    decide +kernel
  rcases prepared : (prepare plainRoot false).onDisk ⟨emptyTree, []⟩ with ⟨_ | ⟨⟩, ready⟩
  · rw [prepared] at prepares
    cases prepares
  have stages : ((stage plainSettings .empty plainRoot ([upModule].map (classify plainSettings))
      (startConfig plainSettings browser plainRoot)).onDisk
      ((prepare plainRoot false).onDisk ⟨emptyTree, []⟩).2).1.isOk = true := by
    decide +kernel
  rw [prepared] at stages
  rcases staged : (stage plainSettings .empty plainRoot ([upModule].map (classify plainSettings))
      (startConfig plainSettings browser plainRoot)).onDisk ready with ⟨_ | batch, left⟩
  · rw [staged] at stages
    cases stages
  obtain ⟨top, places, -, -, up, -⟩ := package_directories_apart (by simp) build_plainDraft
    (by simpa [upModule, InputFile.ofSource] using PackageId.valid_up) grounded_emptyTree prepared
    staged
  obtain ⟨root, -, directory⟩ := places upModule List.mem_cons_self
  have upwards : upModule.package = .package ".." := rfl
  have name : (PackageId.package "..").stagingName.text = ".." := by decide
  rw [upwards, up, name] at directory
  exact ⟨ready, batch, left, rfl, staged, directory.trans root.symm⟩

end UpwardPackage

end Staging

end PlatformBundle
