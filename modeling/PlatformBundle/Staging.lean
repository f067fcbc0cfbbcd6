import PlatformBundle.Input
import PlatformBundle.Manifest
import PlatformBundle.Registry
import PlatformBundle.World
/-!
Staging a batch. The staging root of a platform becomes a project of its own: the sources of the
entries, a manifest for each package that has one, and the manifest at the top. What was staged
before is cleared; what was installed before stays, unless a reset is asked for.
-/

namespace PlatformBundle

structure StagedBatch where
  root : Path
  /-- The description of the bundle, with every entry of the batch. -/
  config : BundleConfig
  manifest : TopManifest
  packages : KeyMap PackageManifest
  stagingNames : KeySet
  deriving DecidableEq

namespace Staging

def prepare (root : Path) (reset : Bool) : Work Unit := do
  if reset then Work.note .info ("Resetting staging root " ++ root.text)
  (Files.ensureDir root reset).inWork
  (Files.remakeDir (root / packagesDir)).inWork
  (Files.remakeDir (root / builtDir)).inWork

/-- A batch while its files are staged: who owns each staging name, and the bundle so far. -/
structure Progress where
  owners : KeyMap PackageId
  config : BundleConfig

/-- What the settings want done about a file that nobody can bundle. -/
def meetUnsupported (policy : UnclassifiedPolicy) (file : Classified) : Work Unit :=
  match policy with
  | .ignore => pure ()
  | .warn =>
      Work.note .warn (file.sourcePath ++ " is not a JavaScript module; it produces no output")
  | .reject =>
      throw (.general ("unsupported input file " ++ file.sourcePath ++ " (extension `" ++
        file.extension ++ "`)"))

def stageFile (settings : Settings) (root : Path) (progress : Progress) (file : Classified) :
    Work Progress := do
  (Files.makeDir (root / packagesDir / file.stagingName.text)).inWork
  let owners := progress.owners.insert file.stagingName.text file.package
  match file.kind with
  | .entry => do
      (Files.write (root / packagesDir / file.stagedPath) file.source).inWork
      pure ⟨owners, progress.config.addEntry file.stagedPath⟩
  | .unsupported => do
      meetUnsupported settings.unclassified file
      pure ⟨owners, progress.config⟩
  | .sharedPlaceholder | .script => pure ⟨owners, progress.config⟩

def stageFiles (settings : Settings) (root : Path) :
    Progress → List Classified → Work Progress
  | progress, [] => pure progress
  | progress, file :: rest => do
      stageFiles settings root (← stageFile settings root progress file) rest

/-- The application and the own package are no dependencies of the staged project. -/
def hasManifest (settings : Settings) (package : PackageId) : Bool :=
  !(package.isApplication || package == settings.ownPackage)

/-- A package that the registry does not know is taken to have no dependencies. -/
def dependenciesOf (registry : Registry) (package : PackageId) : KeyMap String :=
  (package.name.bind registry.dependencies?).getD KeyMap.empty

def packageManifest (registry : Registry) (name : StagingName) (package : PackageId) :
    PackageManifest :=
  PackageManifest.ofDependencies name (dependenciesOf registry package)

def manifestsOf (settings : Settings) (registry : Registry) (owners : KeyMap PackageId) :
    List (StagingName × PackageManifest) :=
  (owners.entries.filter (fun entry => hasManifest settings entry.2)).map
    (fun entry => (⟨entry.1⟩, packageManifest registry ⟨entry.1⟩ entry.2))

def writeManifests (root : Path) : List (StagingName × PackageManifest) → FileWork Unit
  | [] => pure ()
  | (name, manifest) :: rest => do
      Files.write (root / packagesDir / name.text / manifestFile) manifest.fileText
      writeManifests root rest

def topManifest (settings : Settings) (names : List StagingName) : TopManifest :=
  names.foldl TopManifest.addPackage (TopManifest.ofTools settings.toolDependencies)

def stage (settings : Settings) (registry : Registry) (root : Path) (files : List Classified)
    (config : BundleConfig) : Work StagedBatch := do
  let progress ← stageFiles settings root ⟨KeyMap.empty, config⟩ files
  let manifests := manifestsOf settings registry progress.owners
  (writeManifests root manifests).inWork
  let manifest := topManifest settings (manifests.map Prod.fst)
  (Files.write (root / manifestFile) manifest.fileText).inWork
  pure {
    root
    config := progress.config
    manifest
    packages := KeyMap.ofList (manifests.map (fun entry => (entry.1.text, entry.2)))
    stagingNames := progress.owners.mapValues (fun _ => ()) }

end Staging

end PlatformBundle
