import PlatformBundle.Proofs.BatchEnds
import PlatformBundle.Proofs.EmittedChunks
import PlatformBundle.Proofs.RootNames
import PlatformBundle.Proofs.StitchedFiles
/-!
Every entry of a batch gets its own code back. A file's source, its place below the staging root,
the source that the bundling tool reads and the chunk that is stitched are named by four paths;
they belong together for each file, whatever else the batch holds.
-/

namespace PlatformBundle

open FileTree Disk Staging

namespace Batch

/-- Files that can be staged side by side, below a staging root that is spelled out. -/
structure Stageable (settings : Settings) (platform : Platform) (names : List String)
    (files : List Classified) : Prop where
  root : settings.stagingRoot platform = Path.ofReal (names ++ [platform.dirName])
  proper : ∀ name ∈ names ++ [platform.dirName], IsProper name
  ordinary : ∀ file ∈ files, file.IsOrdinary
  distinct : (files.map Classified.stagedPath).Nodup
  apart : ∀ file ∈ files, file.kind = .entry → file.fileName ≠ manifestFile

section Chunks

variable {settings : Settings} {registry : Registry} {tools : Tools} {platform : Platform}
  {names : List String} {files : List Classified} {compile : String → String} {reset : Bool}
  {disk left : Disk}

theorem StagingEnds.supplied {batch : StagedBatch}
    (stageable : Stageable settings platform names files) (grounded : disk.tree.Grounded)
    (unlinked : reset = false → disk.ManifestUnlinked (settings.stagingRoot platform))
    (ends : StagingEnds settings registry platform files reset disk (.ok batch) left) :
    ∃ place, Supplied (names ++ [platform.dirName]) place files left := by
  have properManifest := proper_append_one stageable.proper isProper_manifestFile
  have manifestPath := Path.ofReal_div_name (segments_of_proper stageable.proper)
    isProper_manifestFile.toIsSegment
  cases ends with
  | staged prepare stage =>
      rw [stageable.root] at prepare stage unlinked
      obtain ⟨_, _, _, -, -, top, -⟩ := stage_ok stage
      rw [manifestPath] at top
      have plain : reset = false → PlainManifest disk.tree (names ++ [platform.dirName]) :=
        fun kept => plainManifest_of_unlinked stageable.proper
          (checkText_of_write properManifest top) (unlinked kept)
      obtain ⟨place, ready⟩ := prepare_ready stageable.proper grounded plain prepare
      obtain ⟨other, leads, checked, output, clear⟩ :=
        prepare_output stageable.proper grounded prepare
      obtain rfl := leads.unique ready.leads
      have reads := stage_source (List.append_ne_nil_of_right_ne_nil _ (List.cons_ne_nil _ _))
        stageable.proper stageable.ordinary stageable.distinct ready stage
      have grown := stage_grown (Path.isAbsolute_ofReal _) ready.grounded stage
      refine ⟨other, .of_ready stageable.proper stageable.ordinary (ready.grow grown) checked
        (output.grow grown.toGrows) (grown.linkless clear) ?_⟩
      exact fun file member entry =>
        reads file member entry (fun called => absurd called (stageable.apart file member entry))

theorem StagingEnds.describes {batch : StagedBatch}
    (root : settings.stagingRoot platform = Path.ofReal names)
    (shared : settings.sharedModulesFile = "shared-modules.js")
    (ends : StagingEnds settings registry platform files reset disk (.ok batch) left) :
    Describes names files batch.config ∧ ∀ file ∈ files, file.kind = .entry →
      batch.config.entry.get? file.stagedPath =
        some (BundleConfig.entrySource file.stagedPath) := by
  cases ends with
  | staged prepare stage =>
      obtain ⟨output, chunk⟩ := stage_places stage
      obtain ⟨-, -, -, config⟩ := stage_described stage
      have entries := @entry_get?_iff files ⟨KeyMap.empty, startConfig settings platform
        (settings.stagingRoot platform)⟩ rfl
      rw [← config] at entries
      refine ⟨⟨fun key source => (entries key source).mp, ?_, chunk.trans shared⟩, ?_⟩
      · exact output.trans (congrArg (· / builtDir) root)
      · exact fun file member entry => (entries _ _).mpr ⟨rfl, file, member, entry, rfl⟩

theorem BundlingEnds.holds {place : RealPath} {batch : StagedBatch} {sources bundles : Disk}
    {config : BundleConfig} {made : List Call} (proper : ∀ name ∈ names, IsProper name)
    (ordinary : ∀ file ∈ files, file.IsOrdinary)
    (distinct : (files.map Classified.stagedPath).Nodup)
    (describes : Describes names files batch.config)
    (supplied : Supplied names place files sources)
    (keeps : tools.KeepsSources sources (Path.ofReal names)) (compiles : tools.Compiles compile)
    (ends : BundlingEnds tools platform (Path.ofReal names) batch sources (.ok config) bundles
      made) {file : Classified} (member : file ∈ files) (kind : file.kind = .entry)
    (listed : batch.config.entry.get? file.stagedPath =
      some (BundleConfig.entrySource file.stagedPath)) :
    bundles.readText (config.entryChunkPath file.stagedPath) = .ok (compile file.source) := by
  cases ends with
  | bundled install closure finalize bundle =>
      obtain rfl := Closure.verify_leaves closure
      obtain ⟨same, rfl⟩ := finalized_ok finalize
      have installed := supplied.of_undisturbed (keeps supplied.grounded install)
      obtain ⟨past, done, emitting, complete⟩ := compiles _ config _ bundle
      rw [← same.1] at listed
      exact (emitting.holds proper ordinary distinct (describes.of_sameChunks same)
        installed).2 file member kind (complete _ _ listed)

end Chunks

/-- Files of one platform, each with a package and a name that can be staged. -/
structure IsOrderly (platform : Platform) (files : List InputFile) : Prop where
  alike : ∀ file ∈ files, file.platform = platform
  ordinary : ∀ file ∈ files, file.IsOrdinary
  distinct : (files.map (fun file => (file.package, file.fileName))).Nodup

theorem IsOrderly.stageable {platform : Platform} {files : List InputFile}
    (orderly : IsOrderly platform files) {workdir : RealPath} {settings : Settings}
    (proper : ∀ name ∈ workdir, IsProper name) (accepted : settings.Accepted workdir)
    (suffix : settings.entrySuffix = "module.js") :
    ∃ names, Stageable settings platform names (files.map (classify settings)) := by
  obtain ⟨names, properRoot, root⟩ := stagingRoot_eq proper accepted platform
  refine ⟨names, root, properRoot, ?_, ?_, ?_⟩
  · intro file member
    obtain ⟨input, given, rfl⟩ := List.mem_map.mp member
    exact isOrdinary_classify settings (orderly.ordinary input given)
  · exact stagedPaths_distinct orderly.ordinary orderly.distinct
  · intro file member entry same
    obtain ⟨input, given, rfl⟩ := List.mem_map.mp member
    have ends : kindOf settings input = .entry := entry
    have named : input.fileName = manifestFile := same
    unfold kindOf at ends
    split at ends
    · cases ends
    · split at ends
      · rename_i listed
        rw [named, suffix] at listed
        revert listed
        decide
      · split at ends <;> cases ends

section Widgets

open Rehearsal

def browser : Platform := ⟨"web.browser"⟩

def plainDraft : Settings.Draft :=
  { Settings.Draft.blank with
    appRoot := some ⟨"/a"⟩
    stagingBase := some ⟨"/b"⟩
    toolDependencies := some KeyMap.empty }

def plainSettings : Settings where
  appRoot := ⟨"/a"⟩
  stagingBase := Path.absolutize [] ⟨"/b"⟩
  ownPackage := Settings.defaultOwnPackage
  sharedNamespace := Settings.defaultNamespace
  entrySuffix := "module.js"
  sharedModulesFile := "shared-modules.js"
  browserGlobal := "window"
  toolDependencies := KeyMap.empty
  npm := .standard
  webpack := .standard
  unclassified := .warn
  resetOnFirstRun := false
  platformOverrides := KeyMap.empty

theorem build_plainDraft : plainDraft.build [] = .ok plainSettings := rfl

def wrapping : BundlerPlan := ⟨[], [], "<", ">", some "s", false⟩

def widgetModule : InputFile := .ofSource (.package "acme:widgets") "module.js" "w()" browser

def appModule : InputFile := .ofSource .application "module.js" "a()" browser

theorem isOrdinary_widgetModule : widgetModule.IsOrdinary where
  valid := by
    rintro name ⟨⟩
    rfl
  notHere := by decide
  notUp := by decide
  components := by decide

theorem isOrdinary_appModule : appModule.IsOrdinary where
  valid := by
    rintro name ⟨⟩
  notHere := by decide
  notUp := by decide
  components := by decide

theorem isOrderly_appModule : IsOrderly browser [appModule] where
  alike := by
    intro file member
    rw [List.mem_singleton.mp member]
    rfl
  ordinary := by
    intro file member
    rw [List.mem_singleton.mp member]
    exact isOrdinary_appModule
  distinct := by decide

theorem isOrderly_modules : IsOrderly browser [widgetModule, appModule] where
  alike := by
    intro file member
    rcases List.mem_cons.mp member with rfl | later
    · rfl
    · exact isOrderly_appModule.alike file later
  ordinary := by
    intro file member
    rcases List.mem_cons.mp member with rfl | later
    · exact isOrdinary_widgetModule
    · exact isOrderly_appModule.ordinary file later
  distinct := by decide

def emptyTree : FileTree := ⟨[]⟩

theorem grounded_emptyTree : emptyTree.Grounded := by
  intro place name there
  refine absurd ?_ there
  rw [get?, if_neg (by simp)]
  rfl

def emptyWorld : World := World.onDisk ⟨emptyTree, []⟩

def plainTools : Tools := Rehearsal.tools ⟨[], [], [modulesDir ++ "/lodash"], none⟩ wrapping

def linkedTree : FileTree :=
  ((emptyTree.put ["b"] .directory).put ["b", "web.browser"] .directory).put
    ["b", "web.browser", "package.json"] (.link "packages/__app__/module.js")

theorem grounded_linkedTree : linkedTree.Grounded := by
  have base : (emptyTree.put ["b"] .directory).Grounded :=
    Grounded.put grounded_emptyTree (get?_root emptyTree) (Or.inl rfl)
  have root : ((emptyTree.put ["b"] .directory).put ["b", "web.browser"] .directory).Grounded := by
    have stands : (emptyTree.put ["b"] .directory).get? ["b"] = some .directory := rfl
    exact base.put stands (Or.inl rfl)
  have stands : ((emptyTree.put ["b"] .directory).put ["b", "web.browser"] .directory).get?
      ["b", "web.browser"] = some .directory := rfl
  have free : ((emptyTree.put ["b"] .directory).put ["b", "web.browser"] .directory).get?
      (["b", "web.browser"] ++ ["package.json"]) = none := rfl
  refine root.put stands (Or.inr ?_)
  rw [free]
  simp

end Widgets

end Batch

end PlatformBundle
