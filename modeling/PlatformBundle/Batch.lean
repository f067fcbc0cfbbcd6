import PlatformBundle.Closure
import PlatformBundle.Staging
import PlatformBundle.Stitch
/-!
Processing a batch: the files of one platform go through staging, installation, bundling and
stitching, and come back as one artifact each. The first fault ends the batch, and the error that
the host sees names the stage and the platform. A batch without entries needs neither tool.
-/

namespace PlatformBundle

abbrev BatchWork := ExceptT BuildError WorldTask

namespace Batch

def inStage {α : Type} (stage : Stage) (platform : Platform) (work : Work α) : BatchWork α :=
  ExceptT.mk ((fun result => result.mapError (.inStage stage platform.tag)) <$> work.run)

def note (message : String) : BatchWork Unit :=
  ExceptT.lift (WorldTask.ask (.note ⟨.info, message⟩))

def mixedText (first other : Platform) : String :=
  "batch mixes platforms `" ++ first.tag ++ "` and `" ++ other.tag ++ "`"

def commonPlatform : List InputFile → Except BuildError Platform
  | [] => .error (.inStage .staging "<none>" (.general "empty input batch"))
  | first :: rest =>
      match rest.find? (fun file => file.platform ≠ first.platform) with
      | some other =>
          .error (.inStage .staging first.platform.tag
            (.general (mixedText first.platform other.platform)))
      | none => .ok first.platform

def checkOwnPackage (settings : Settings) (registry : Registry) : BatchWork Unit :=
  match settings.ownPackage with
  | .application => pure ()
  | .package name =>
      if registry.isInstalled name then pure ()
      else ExceptT.lift (WorldTask.ask (.note ⟨.warn,
        name ++ " is not installed in the application; shared modules will not be reachable"⟩))

/-- Only a platform without a global object gets the namespace as one. -/
def startConfig (settings : Settings) (platform : Platform) (root : Path) : BundleConfig :=
  BundleConfig.start root settings.sharedModulesFile
    (if (settings.capabilities platform).ambientGlobal then none
      else some settings.sharedNamespace)

def stagedText (staged : StagedBatch) (root : Path) : String :=
  "Staged " ++ toString staged.config.entry.size ++ " entry(ies) from " ++
    toString staged.stagingNames.size ++ " package(s) in " ++ root.text

def stageAll (settings : Settings) (registry : Registry) (platform : Platform)
    (files : List Classified) : BatchWork StagedBatch := do
  let root := settings.stagingRoot platform
  let first ← ExceptT.lift (WorldTask.ask (.beginPass platform))
  inStage .staging platform (Staging.prepare root (first && settings.resetOnFirstRun))
  let config := startConfig settings platform root
  inStage .staging platform (Staging.stage settings registry root files config)

/-- The description with its fallbacks, or the fault that stopped their search. -/
def finalized (config : BundleConfig) (root : Path) (names : List StagingName) :
    Work BundleConfig :=
  ExceptT.mk ((fun outcome => outcome.1.map (fun _ => outcome.2)) <$>
    (config.finalize root names).inTask)

def bundleAll (platform : Platform) (root : Path) (staged : StagedBatch) :
    BatchWork BundleConfig := do
  note ("Installing dependencies for platform " ++ platform.tag)
  inStage .dependencyInstall platform (ExceptT.mk (WorldTask.ask (.install root)))
  inStage .dependencyInstall platform (Closure.verify root staged.packages).inWork
  let names := staged.stagingNames.keys.map StagingName.mk
  let config ← inStage .bundling platform (finalized staged.config root names)
  note ("Bundling platform " ++ platform.tag)
  inStage .bundling platform (ExceptT.mk (WorldTask.ask (.bundle config root)))
  pure config

def skipText (platform : Platform) : String :=
  "No entry points for platform " ++ platform.tag ++ "; skipping install and bundling"

def producedText (platform : Platform) (artifacts : List Artifact) : String :=
  "Platform " ++ platform.tag ++ " produced " ++ toString artifacts.length ++ " artifact(s), " ++
    toString (artifacts.countP (fun artifact => !artifact.isEmpty)) ++ " with code"

def processFor (settings : Settings) (registry : Registry) (platform : Platform)
    (files : List InputFile) : BatchWork (List Artifact) := do
  note ("Processing " ++ toString files.length ++ " file(s) for platform " ++ platform.tag)
  checkOwnPackage settings registry
  let classified := files.map (classify settings)
  let root := settings.stagingRoot platform
  let staged ← stageAll settings registry platform classified
  note (stagedText staged root)
  let config ←
    if staged.config.entry.isEmpty then do
      note (skipText platform)
      pure staged.config
    else bundleAll platform root staged
  let stitcher := Stitcher.ofSettings settings (settings.capabilities platform)
  let artifacts ← inStage .stitching platform (stitcher.stitch config classified).inWork
  note (producedText platform artifacts)
  pure artifacts

/-- Processes the files of one platform. -/
def process (settings : Settings) (registry : Registry) (files : List InputFile) :
    WorldTask (Except BuildError (List Artifact)) :=
  match commonPlatform files with
  | .error error => pure (.error error)
  | .ok platform => (processFor settings registry platform files).run

/-- A caller that waits must not stand inside other work that is run the same way. -/
def insideOtherWork : BuildError :=
  .plain (.general "process_files_for_target_blocking called from within an async runtime")

end Batch

end PlatformBundle
