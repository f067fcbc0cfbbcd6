import PlatformBundle.KeyMap
import PlatformBundle.Package
import PlatformBundle.Platform
/-!
Settings of the bundler. A draft names what the user chose and leaves the rest open; `Draft.build`
fills in the defaults, checks the identifiers that end up in generated code, and makes the staging
base absolute. The checks come in a fixed order, so a draft with two faults reports the first.
-/

namespace PlatformBundle

structure NpmSettings where
  /-- The executable to run, looked for on the search path when it is not given. -/
  program : Option Path
  loglevel : String
  extraArgs : List String
  deriving DecidableEq

def NpmSettings.standard : NpmSettings := ⟨none, "silent", []⟩

structure WebpackSettings where
  /-- The executable to run, looked for in the staging root and on the search path otherwise. -/
  program : Option Path
  configFile : String
  deriving DecidableEq

def WebpackSettings.standard : WebpackSettings := ⟨none, "webpack.config.js"⟩

inductive UnclassifiedPolicy where
  | ignore
  | warn
  | reject
  deriving DecidableEq

structure Settings where
  appRoot : Path
  /-- The directory that holds one staging root for each platform. -/
  stagingBase : Path
  /-- The package that hosts the bundler and exports the sharing namespace. -/
  ownPackage : PackageId
  sharedNamespace : String
  entrySuffix : String
  sharedModulesFile : String
  browserGlobal : String
  toolDependencies : KeyMap String
  npm : NpmSettings
  webpack : WebpackSettings
  unclassified : UnclassifiedPolicy
  resetOnFirstRun : Bool
  platformOverrides : KeyMap Capabilities
  deriving DecidableEq

namespace Settings

def stagingRoot (settings : Settings) (platform : Platform) : Path :=
  settings.stagingBase / platform.dirName

def capabilities (settings : Settings) (platform : Platform) : Capabilities :=
  (settings.platformOverrides.get? platform.tag).getD platform.defaultCapabilities

def defaultOwnPackage : PackageId := .package "rocket:module"

def defaultNamespace : String := "RocketModule"

def defaultStagingDir : String := ".meteor/local/module-bundler"

def defaultToolDependencies : KeyMap String := KeyMap.ofList [("webpack", "^1.9.10")]

/-- Settings as far as they have been chosen. -/
structure Draft where
  appRoot : Option Path
  stagingBase : Option Path
  ownPackage : Option PackageId
  sharedNamespace : Option String
  entrySuffix : Option String
  sharedModulesFile : Option String
  browserGlobal : Option String
  toolDependencies : Option (KeyMap String)
  npm : NpmSettings
  webpack : WebpackSettings
  unclassified : UnclassifiedPolicy
  resetOnFirstRun : Bool
  platformOverrides : KeyMap Capabilities
  deriving DecidableEq

def Draft.blank : Draft where
  appRoot := none
  stagingBase := none
  ownPackage := none
  sharedNamespace := none
  entrySuffix := none
  sharedModulesFile := none
  browserGlobal := none
  toolDependencies := none
  npm := .standard
  webpack := .standard
  unclassified := .warn
  resetOnFirstRun := false
  platformOverrides := KeyMap.empty

def isIdentifierStart (c : Char) : Bool := c.isAlpha || c == '_' || c == '$'

def isIdentifierChar (c : Char) : Bool := c.isAlphanum || c == '_' || c == '$'

def isIdentifier (text : String) : Bool :=
  match text.toList with
  | [] => false
  | c :: rest => isIdentifierStart c && rest.all isIdentifierChar

def checkIdentifier (text : String) : Except Fault Unit :=
  if isIdentifier text then .ok ()
  else .error (.general ("`" ++ text ++ "` is not a valid JavaScript identifier"))

/-- The browser global is looked for as a whole word, and a `$` belongs to no word. -/
def checkGlobal (sharedNamespace browserGlobal : String) : Except Fault Unit :=
  if browserGlobal.toList.contains '$' then
    .error (.general ("browser global `" ++ browserGlobal ++ "` must be a plain word identifier"))
  else if sharedNamespace = browserGlobal then
    .error (.general "namespace must differ from the browser global")
  else .ok ()

def checkFileNames (entrySuffix sharedModulesFile : String) : Except Fault Unit :=
  if entrySuffix.isEmpty || sharedModulesFile.isEmpty then
    .error (.general "entry suffix and shared modules file must not be empty")
  else .ok ()

/-- Relative staging bases start from `workdir`. -/
def Draft.build (workdir : RealPath) (draft : Draft) : Except Fault Settings := do
  let some appRoot := draft.appRoot | .error (.general "app_root is required")
  let stagingBase := (draft.stagingBase.getD (appRoot / defaultStagingDir)).absolutize workdir
  let sharedNamespace := draft.sharedNamespace.getD defaultNamespace
  let browserGlobal := draft.browserGlobal.getD "window"
  checkIdentifier sharedNamespace
  checkIdentifier browserGlobal
  checkGlobal sharedNamespace browserGlobal
  let entrySuffix := draft.entrySuffix.getD "module.js"
  let sharedModulesFile := draft.sharedModulesFile.getD "shared-modules.js"
  checkFileNames entrySuffix sharedModulesFile
  .ok {
    appRoot
    stagingBase
    ownPackage := draft.ownPackage.getD defaultOwnPackage
    sharedNamespace
    entrySuffix
    sharedModulesFile
    browserGlobal
    toolDependencies := draft.toolDependencies.getD defaultToolDependencies
    npm := draft.npm
    webpack := draft.webpack
    unclassified := draft.unclassified
    resetOnFirstRun := draft.resetOnFirstRun
    platformOverrides := draft.platformOverrides }

end Settings

end PlatformBundle
