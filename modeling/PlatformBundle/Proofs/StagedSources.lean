import PlatformBundle.Proofs.DiskGrowth
import PlatformBundle.Proofs.SourceNames
import PlatformBundle.Proofs.StagedManifests
import PlatformBundle.Proofs.StagingRoot
/-!
The sources of a batch once it is staged. Each entry's source is at a place of its own, and nothing
that is written after it goes there: not the other sources, not the manifests.
-/

namespace PlatformBundle.Staging

open FileTree Disk

variable {disk left : Disk} {names : List String} {place : RealPath} {settings : Settings}

section Growth

variable {root : Path}

theorem stageFile_grown {file : Classified} {progress after : Progress}
    (absolute : root.isAbsolute = true) (grounded : disk.tree.Grounded)
    (staged : (stageFile settings root progress file).onDisk disk = (.ok after, left)) :
    ∃ made, (Files.makeDir (root / packagesDir / file.stagingName.text)).onDisk disk =
        (.ok (), made) ∧
      (∀ spared, Grown spared disk.tree made.tree) ∧
      Grown (fun _ => False) made.tree left.tree := by
  have inside := Path.isAbsolute_div absolute packagesDir
  obtain ⟨-, made, make, rest⟩ := stageFile_ok staged
  have grown := fun spared =>
    Files.makeDir_grown spared (Path.isAbsolute_div inside _) grounded make
  refine ⟨made, make, grown, ?_⟩
  have groundedMade := (grown (fun _ => True)).grounded
  split at rest
  · exact Files.write_grown (Path.isAbsolute_div inside file.stagedPath) groundedMade rest
  · rw [rest]
    exact .refl _ groundedMade

theorem stageFiles_grown {files : List Classified} {progress after : Progress}
    (absolute : root.isAbsolute = true) (grounded : disk.tree.Grounded)
    (staged : (stageFiles settings root progress files).onDisk disk = (.ok after, left)) :
    Grown (fun _ => False) disk.tree left.tree := by
  induction files generalizing progress disk with
  | nil =>
      obtain ⟨-, rfl⟩ := Work.onDisk_pure_ok disk staged
      exact .refl _ grounded
  | cons file rest ih =>
      obtain ⟨middle, first, others⟩ := stageFiles_cons_ok staged
      obtain ⟨made, -, grownMade, grown⟩ := stageFile_grown absolute grounded first
      exact ((grownMade _).trans grown).trans (ih grown.grounded others)

theorem writeManifests_grows {manifests : List (StagingName × PackageManifest)}
    (absolute : root.isAbsolute = true) (grounded : disk.tree.Grounded)
    (wrote : (writeManifests root manifests).onDisk disk = (.ok (), left)) :
    Grown (fun _ => False) disk.tree left.tree := by
  induction manifests generalizing disk with
  | nil =>
      cases wrote
      exact .refl _ grounded
  | cons entry rest ih =>
      obtain ⟨_, middle, first, others⟩ := (FileWork.onDisk_bind_ok_iff disk).mp wrote
      have inside := Path.isAbsolute_div (Path.isAbsolute_div absolute packagesDir) entry.1.text
      have grown := Files.write_grown (Path.isAbsolute_div inside manifestFile) grounded first
      exact grown.trans (ih grown.grounded others)

theorem stage_grown {registry : Registry} {files : List Classified} {config : BundleConfig}
    {batch : StagedBatch} (absolute : root.isAbsolute = true) (grounded : disk.tree.Grounded)
    (staged : (stage settings registry root files config).onDisk disk = (.ok batch, left)) :
    Grown (fun _ => False) disk.tree left.tree := by
  obtain ⟨progress, sources, described, staging, manifests, top, -⟩ := stage_ok staged
  have grownSources := stageFiles_grown absolute grounded staging
  have grownManifests := writeManifests_grows absolute grownSources.grounded manifests
  have grownTop := Files.write_grown (Path.isAbsolute_div absolute manifestFile)
    grownManifests.grounded top
  exact (grownSources.trans grownManifests).trans grownTop

end Growth

def sourceSpot (place : RealPath) (file : Classified) : RealPath :=
  place ++ packagesDir :: namesOf file.stagedPath

def sourcePath (names : List String) (file : Classified) : Path :=
  Path.ofReal names / packagesDir / file.stagedPath

theorem ofReal_div_below {top below : String} (segments : ∀ name ∈ names, IsSegment name)
    (properTop : IsProper top) (proper : ∀ name ∈ namesOf below, IsProper name) :
    Path.ofReal names / top / below = Path.ofReal (names ++ top :: namesOf below) := by
  have inside := segments_append_one segments properTop.toIsSegment
  have joined := Path.ofReal_div (namesOf_ne_nil below) inside (segments_of_proper proper)
  rw [joinWith_namesOf, List.append_assoc] at joined
  rw [Path.ofReal_div_name segments properTop.toIsSegment, joined]
  rfl

theorem sourcePath_eq {file : Classified} (segments : ∀ name ∈ names, IsSegment name)
    (ordinary : file.IsOrdinary) :
    sourcePath names file = Path.ofReal (names ++ packagesDir :: namesOf file.stagedPath) :=
  ofReal_div_below segments isProper_packagesDir ordinary.proper

theorem namesOf_entrySource (stagedPath : String) :
    namesOf (BundleConfig.entrySource stagedPath) = "." :: packagesDir :: namesOf stagedPath := by
  have spelled : BundleConfig.entrySource stagedPath =
      "." ++ "/" ++ (packagesDir ++ "/" ++ stagedPath) := by
    rw [← String.toList_inj]
    simp [BundleConfig.entrySource]
  rw [spelled, namesOf_below (by decide), namesOf_below (by decide)]

theorem proper_below {top : String} {more : List String} (proper : ∀ name ∈ names, IsProper name)
    (properTop : IsProper top) (properMore : ∀ name ∈ more, IsProper name) :
    ∀ name ∈ names ++ top :: more, IsProper name := by
  intro name listed
  rcases List.mem_append.mp listed with above | below
  · exact proper name above
  · rcases List.mem_cons.mp below with rfl | inside
    · exact properTop
    · exact properMore name inside

-- There is a directory above each of these paths to make before the file is written.
theorem two_le_length_below {top : String} {more : List String} (filled : more ≠ []) :
    2 ≤ (names ++ top :: more).length := by
  have one := List.length_pos_of_ne_nil filled
  simp only [List.length_append, List.length_cons]
  omega

theorem write_below {more : List String} {text : String} (filled : more ≠ [])
    (proper : ∀ name ∈ names, IsProper name) (properMore : ∀ name ∈ more, IsProper name)
    (ready : Ready disk.tree names place)
    (wrote : (Files.write (Path.ofReal (names ++ packagesDir :: more)) text).onDisk disk =
      (.ok (), left)) :
    Grown (fun other => other ≠ place ++ packagesDir :: more) disk.tree left.tree ∧
      left.readText (Path.ofReal (names ++ packagesDir :: more)) = .ok text :=
  write_linkless (proper_below proper isProper_packagesDir properMore) ready.leads ready.sources
    (two_le_length_below filled) ready.grounded wrote

theorem readText_below {more : List String} {text : String} {spared : RealPath → Prop}
    (proper : ∀ name ∈ names, IsProper name) (properMore : ∀ name ∈ more, IsProper name)
    (ready : Ready disk.tree names place) (grows : Grows spared disk.tree left.tree)
    (safe : spared (place ++ packagesDir :: more))
    (read : disk.readText (Path.ofReal (names ++ packagesDir :: more)) = .ok text) :
    left.readText (Path.ofReal (names ++ packagesDir :: more)) = .ok text :=
  readText_linkless (proper_below proper isProper_packagesDir properMore) ready.leads
    ready.sources grows safe read

theorem readText_grow {file : Classified} {text : String} {spared : RealPath → Prop}
    (proper : ∀ name ∈ names, IsProper name) (ordinary : file.IsOrdinary)
    (ready : Ready disk.tree names place) (grows : Grows spared disk.tree left.tree)
    (safe : spared (sourceSpot place file))
    (read : disk.readText (sourcePath names file) = .ok text) :
    left.readText (sourcePath names file) = .ok text := by
  rw [sourcePath_eq (segments_of_proper proper) ordinary] at read ⊢
  exact readText_below proper ordinary.proper ready grows safe read

theorem write_source {file : Classified} {text : String}
    (proper : ∀ name ∈ names, IsProper name) (ordinary : file.IsOrdinary)
    (ready : Ready disk.tree names place)
    (wrote : (Files.write (sourcePath names file) text).onDisk disk = (.ok (), left)) :
    Grown (fun other => other ≠ sourceSpot place file) disk.tree left.tree ∧
      left.readText (sourcePath names file) = .ok text := by
  rw [sourcePath_eq (segments_of_proper proper) ordinary] at wrote ⊢
  exact write_below (namesOf_ne_nil file.stagedPath) proper ordinary.proper ready wrote

theorem makeDir_package {name : String} (spared : RealPath → Prop)
    (proper : ∀ name ∈ names, IsProper name) (properName : IsProper name)
    (grounded : disk.tree.Grounded)
    (made : (Files.makeDir (Path.ofReal names / packagesDir / name)).onDisk disk = (.ok (), left)) :
    Grown spared disk.tree left.tree := by
  have inner := proper_append_one proper isProper_packagesDir
  rw [Path.ofReal_div_name (segments_of_proper proper) isProper_packagesDir.toIsSegment,
    Path.ofReal_div_name (segments_of_proper inner) properName.toIsSegment,
    Files.makeDir_ok_iff] at made
  exact (createDirs_reached spared (proper_append_one inner properName) grounded made).1

theorem sourceSpot_injective {first second : Classified}
    (same : sourceSpot place first = sourceSpot place second) :
    first.stagedPath = second.stagedPath := by
  obtain ⟨-, names⟩ := List.cons.inj (List.append_cancel_left same)
  exact namesOf_injective names

theorem stageFile_source {file : Classified} {progress after : Progress}
    (proper : ∀ name ∈ names, IsProper name) (ordinary : file.IsOrdinary)
    (ready : Ready disk.tree names place)
    (staged : (stageFile settings (Path.ofReal names) progress file).onDisk disk =
      (.ok after, left)) :
    Grown (fun other => file.kind = .entry → other ≠ sourceSpot place file) disk.tree left.tree ∧
      (file.kind = .entry → left.readText (sourcePath names file) = .ok file.source) := by
  obtain ⟨-, made, make, rest⟩ := stageFile_ok staged
  have grown := fun spared => makeDir_package spared proper ordinary.staging ready.grounded make
  split at rest
  · rename_i entry
    obtain ⟨written, read⟩ := write_source proper ordinary (ready.grow (grown (fun _ => True))) rest
    refine ⟨(grown _).trans (written.weaken ?_), fun _ => read⟩
    intro other safe
    exact safe entry
  · rename_i other
    subst rest
    exact ⟨grown _, fun entry => absurd entry other⟩

-- The induction carries that what is staged later spares the sources that are there already.
theorem stageFiles_sources {files : List Classified} {progress after : Progress}
    (proper : ∀ name ∈ names, IsProper name) (ordinary : ∀ file ∈ files, file.IsOrdinary)
    (distinct : (files.map Classified.stagedPath).Nodup) (ready : Ready disk.tree names place)
    (staged : (stageFiles settings (Path.ofReal names) progress files).onDisk disk =
      (.ok after, left)) :
    Grown (fun other => ∀ file ∈ files, file.kind = .entry → other ≠ sourceSpot place file)
        disk.tree left.tree ∧
      ∀ file ∈ files, file.kind = .entry →
        left.readText (sourcePath names file) = .ok file.source := by
  induction files generalizing progress disk with
  | nil =>
      obtain ⟨-, rfl⟩ := Work.onDisk_pure_ok disk staged
      exact ⟨.refl _ ready.grounded, by simp⟩
  | cons file rest ih =>
      obtain ⟨new, apart⟩ := List.nodup_cons.mp distinct
      obtain ⟨middle, first, others⟩ := stageFiles_cons_ok staged
      obtain ⟨grown, read⟩ := stageFile_source proper (ordinary file List.mem_cons_self) ready first
      have readyNext := ready.grow grown
      obtain ⟨grownRest, reads⟩ := ih
        (fun other later => ordinary other (List.mem_cons_of_mem _ later)) apart readyNext others
      refine ⟨(grown.weaken ?_).trans (grownRest.weaken ?_), ?_⟩
      · intro other safe
        exact safe file List.mem_cons_self
      · intro other safe later member
        exact safe later (List.mem_cons_of_mem _ member)
      · intro other member entry
        rcases List.mem_cons.mp member with rfl | later
        · refine readText_grow proper (ordinary _ List.mem_cons_self) readyNext
            grownRest.toGrows ?_ (read entry)
          intro next later _ same
          exact new (List.mem_map.mpr ⟨next, later, (sourceSpot_injective same).symm⟩)
        · exact reads other later entry

def manifestSpot (place : RealPath) (name : StagingName) : RealPath :=
  place ++ [packagesDir, name.text, manifestFile]

theorem manifestPath_eq {name : String} (segments : ∀ name ∈ names, IsSegment name)
    (segment : IsSegment name) : Path.ofReal names / packagesDir / name / manifestFile =
      Path.ofReal (names ++ packagesDir :: [name, manifestFile]) := by
  have inner := segments_append_one segments isProper_packagesDir.toIsSegment
  have outer := segments_append_one inner segment
  have first := Path.ofReal_div_name segments isProper_packagesDir.toIsSegment
  have second := Path.ofReal_div_name inner segment
  have third := Path.ofReal_div_name outer isProper_manifestFile.toIsSegment
  rw [first, second, third, List.append_assoc, List.append_assoc]
  rfl

theorem proper_manifest {name : String} (proper : IsProper name) :
    ∀ part ∈ [name, manifestFile], IsProper part := by
  intro part listed
  simp only [List.mem_cons, List.not_mem_nil, or_false] at listed
  rcases listed with rfl | rfl
  · exact proper
  · exact isProper_manifestFile

theorem write_manifest {name : StagingName} {text : String} (proper : ∀ name ∈ names, IsProper name)
    (properName : IsProper name.text) (ready : Ready disk.tree names place)
    (wrote : (Files.write (Path.ofReal names / packagesDir / name.text / manifestFile) text).onDisk
      disk = (.ok (), left)) :
    Grown (fun other => other ≠ manifestSpot place name) disk.tree left.tree ∧
      left.readText (Path.ofReal names / packagesDir / name.text / manifestFile) = .ok text := by
  rw [manifestPath_eq (segments_of_proper proper) properName.toIsSegment] at wrote ⊢
  exact write_below (List.cons_ne_nil _ _) proper (proper_manifest properName) ready wrote

theorem manifestSpot_injective {first second : StagingName}
    (same : manifestSpot place first = manifestSpot place second) : first = second := by
  have names := List.append_cancel_left same
  rw [StagingName.mk.injEq]
  exact (List.cons.inj (List.cons.inj names).2).1

/-- Each manifest is there in the end, since no two of them are put at one place. -/
theorem writeManifests_written {manifests : List (StagingName × PackageManifest)}
    (proper : ∀ name ∈ names, IsProper name)
    (properNames : ∀ entry ∈ manifests, IsProper entry.1.text)
    (distinct : (manifests.map Prod.fst).Nodup) (ready : Ready disk.tree names place)
    (wrote : (writeManifests (Path.ofReal names) manifests).onDisk disk = (.ok (), left)) :
    Grown (fun other => ∀ entry ∈ manifests, other ≠ manifestSpot place entry.1)
        disk.tree left.tree ∧
      ∀ entry ∈ manifests, left.readText
        (Path.ofReal names / packagesDir / entry.1.text / manifestFile) = .ok entry.2.fileText := by
  induction manifests generalizing disk with
  | nil =>
      cases wrote
      exact ⟨.refl _ ready.grounded, by simp⟩
  | cons entry rest ih =>
      have properName := properNames entry List.mem_cons_self
      obtain ⟨new, apart⟩ := List.nodup_cons.mp distinct
      obtain ⟨_, middle, first, others⟩ := (FileWork.onDisk_bind_ok_iff disk).mp wrote
      obtain ⟨grown, read⟩ := write_manifest proper properName ready first
      have readyNext := ready.grow grown
      obtain ⟨grownRest, reads⟩ := ih
        (fun other later => properNames other (List.mem_cons_of_mem _ later)) apart readyNext others
      refine ⟨(grown.weaken ?_).trans (grownRest.weaken ?_), ?_⟩
      · intro other safe
        exact safe entry List.mem_cons_self
      · intro other safe later member
        exact safe later (List.mem_cons_of_mem _ member)
      · intro other member
        rcases List.mem_cons.mp member with rfl | later
        · rw [manifestPath_eq (segments_of_proper proper) properName.toIsSegment] at read ⊢
          refine readText_below proper (proper_manifest properName) readyNext grownRest.toGrows
            ?_ read
          intro next later same
          exact new (List.mem_map.mpr ⟨next, later, (manifestSpot_injective same).symm⟩)
        · exact reads other later

theorem writeTop_written {text : String} (filled : names ≠ [])
    (proper : ∀ name ∈ names, IsProper name) (ready : Ready disk.tree names place)
    (wrote : (Files.write (Path.ofReal names / manifestFile) text).onDisk disk = (.ok (), left)) :
    Grown (fun other => other ≠ place ++ [manifestFile]) disk.tree left.tree ∧
      left.readText (Path.ofReal names / manifestFile) = .ok text := by
  have properAll := proper_append_one proper isProper_manifestFile
  have long : 2 ≤ (names ++ [manifestFile]).length := by
    have one := List.length_pos_of_ne_nil filled
    rw [List.length_append, List.length_singleton]
    omega
  rw [Path.ofReal_div_name (segments_of_proper proper)
    isProper_manifestFile.toIsSegment] at wrote ⊢
  obtain ⟨checked, made, spot, growths, written⟩ := write_ok properAll long ready.grounded wrote
  have here : spot = place ++ [manifestFile] := by
    obtain ⟨found, walks, rfl⟩ := written.found
    have readyMade := ready.grow (growths (fun _ => True))
    exact readyMade.leads.spot_of_no_link walks isProper_manifestFile readyMade.manifest
  subst here
  refine ⟨(growths _).trans written.grown, ?_⟩
  obtain ⟨executable, walks⟩ := written.stands
  exact (readText_ok_iff (segments_of_proper properAll)).mpr
    ⟨checked, _, _, executable, walks, fromUTF8?_toUTF8 text⟩

theorem manifests_proper {files : List Classified} {registry : Registry}
    (proper : ∀ file ∈ files, IsProper file.stagingName.text) :
    ∀ entry ∈ manifestsOf settings registry (ownersOf files), IsProper entry.1.text := by
  intro entry member
  obtain ⟨⟨name, owner⟩, kept, rfl⟩ := List.mem_map.mp member
  have owned := KeyMap.get?_eq_some_iff.mpr (List.mem_filter.mp kept).1
  rw [get?_ownersOf, Option.map_eq_some_iff] at owned
  obtain ⟨file, found, -⟩ := owned
  have named : file.stagingName.text = name := by simpa using List.find?_some found
  exact named ▸ proper file (List.mem_reverse.mp (List.mem_of_find?_eq_some found))

theorem manifests_distinct {registry : Registry} (owners : KeyMap PackageId) :
    ((manifestsOf settings registry owners).map Prod.fst).Nodup := by
  have ascending := (owners.ascending.filter (fun entry => hasManifest settings entry.2))
  rw [manifestsOf, List.map_map]
  refine List.pairwise_map.mpr (ascending.imp ?_)
  intro first second before same
  have names : first.1 = second.1 := congrArg StagingName.text same
  exact String.lt_irrefl _ (names ▸ before)

theorem called_of_sourceSpot_eq {file : Classified} (ordinary : file.IsOrdinary)
    {name : StagingName} (same : sourceSpot place file = manifestSpot place name) :
    file.fileName = manifestFile ∧ file.stagingName = name := by
  obtain ⟨-, names⟩ := List.cons.inj (List.append_cancel_left same)
  rw [ordinary.staged] at names
  obtain ⟨package, alone⟩ := List.cons.inj names
  exact ⟨namesOf_injective alone, congrArg StagingName.mk package⟩

theorem sourceSpot_ne_top (file : Classified) :
    sourceSpot place file ≠ place ++ [manifestFile] := by
  intro same
  obtain ⟨first, -⟩ := List.cons.inj (List.append_cancel_left same)
  revert first
  decide

/-- Once a batch is staged, the source of each entry is there, unless the entry is called as the
manifest of its package. -/
theorem stage_source {registry : Registry} {files : List Classified} {config : BundleConfig}
    {batch : StagedBatch} (filled : names ≠ []) (proper : ∀ name ∈ names, IsProper name)
    (ordinary : ∀ file ∈ files, file.IsOrdinary)
    (distinct : (files.map Classified.stagedPath).Nodup) (ready : Ready disk.tree names place)
    (staged : (stage settings registry (Path.ofReal names) files config).onDisk disk =
      (.ok batch, left)) :
    ∀ file ∈ files, file.kind = .entry →
      (file.fileName = manifestFile → file.stagingName ∉ (manifestsOf settings registry
        (files.foldl Progress.withFile ⟨KeyMap.empty, config⟩).owners).map Prod.fst) →
      left.readText (sourcePath names file) = .ok file.source := by
  obtain ⟨progress, sources, described, staging, manifests, top, -⟩ := stage_ok staged
  obtain ⟨grown, reads⟩ := stageFiles_sources proper ordinary distinct ready staging
  have readySources := ready.grow grown
  rw [stageFiles_ok_eq staging, owners_withFiles] at manifests
  obtain ⟨grownManifests, -⟩ := writeManifests_written proper
    (manifests_proper fun file member => (ordinary file member).staging)
    (manifests_distinct _) readySources manifests
  have readyManifests := readySources.grow grownManifests
  obtain ⟨grownTop, -⟩ := writeTop_written filled proper readyManifests top
  intro file member entry apart
  rw [owners_withFiles] at apart
  have ordinaryFile := ordinary file member
  have spared : ∀ manifest ∈ manifestsOf settings registry (ownersOf files),
      sourceSpot place file ≠ manifestSpot place manifest.1 := by
    intro manifest listed same
    obtain ⟨called, own⟩ := called_of_sourceSpot_eq ordinaryFile same
    exact apart called (List.mem_map.mpr ⟨manifest, listed, own.symm⟩)
  have afterManifests := readText_grow proper ordinaryFile readySources grownManifests.toGrows
    spared (reads file member entry)
  exact readText_grow proper ordinaryFile readyManifests grownTop.toGrows
    (sourceSpot_ne_top file) afterManifests

end PlatformBundle.Staging
