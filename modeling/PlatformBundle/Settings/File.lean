import PlatformBundle.Disk.Operations
import PlatformBundle.Fault
import PlatformBundle.Settings.Basic
import PlatformBundle.Toml.Reader
import PlatformBundle.Toml.Record
/-!
Settings in a file. The file is a TOML document whose table `bundler` holds the settings; all of
them may be left out. The table itself takes no other keys, the tables inside it pass over those
they do not know. The application root and the staging base start from a base directory, by
default the directory of the file; the programs are taken as they are written.
-/

namespace PlatformBundle.Settings

structure Written where
  appRoot : Option String
  stagingBase : Option String
  ownPackage : Option String
  sharedNamespace : Option String
  entrySuffix : Option String
  sharedModulesFile : Option String
  browserGlobal : Option String
  toolDependencies : Option (KeyMap String)
  npm : NpmSettings
  webpack : WebpackSettings
  unclassified : UnclassifiedPolicy
  resetOnFirstRun : Bool
  platforms : KeyMap Capabilities
  deriving DecidableEq

namespace Written

open Toml

def nothing : Written where
  appRoot := none
  stagingBase := none
  ownPackage := none
  sharedNamespace := none
  entrySuffix := none
  sharedModulesFile := none
  browserGlobal := none
  toolDependencies := none
  npm := .standard
  webpack := .standard
  unclassified := .warn
  resetOnFirstRun := false
  platforms := KeyMap.empty

def npm? (item : Toml) : Option NpmSettings := do
  match ← record? .passedOver ["program", "loglevel", "extra_args"] item with
  | [program, loglevel, extraArgs] =>
      some {
        program := (← optional text? program).map Path.mk
        loglevel := ← orElse NpmSettings.standard.loglevel text? loglevel
        extraArgs := ← orElse NpmSettings.standard.extraArgs texts? extraArgs }
  | _ => none

def webpack? (item : Toml) : Option WebpackSettings := do
  match ← record? .passedOver ["program", "config_file"] item with
  | [program, configFile] =>
      some {
        program := (← optional text? program).map Path.mk
        configFile := ← orElse WebpackSettings.standard.configFile text? configFile }
  | _ => none

/-- Both capabilities have to be given. -/
def capabilities? (item : Toml) : Option Capabilities := do
  match ← record? .passedOver ["ambient_global", "links_shared_namespace"] item with
  | [some ambientGlobal, some linksSharedNamespace] =>
      some ⟨← bool? ambientGlobal, ← bool? linksSharedNamespace⟩
  | _ => none

def policyNamed? (name : String) : Option UnclassifiedPolicy :=
  if name = "ignore" then some .ignore
  else if name = "warn" then some .warn
  else if name = "reject" then some .reject
  else none

def isEmptyItem : Toml → Bool
  | .array _ items => items.isEmpty
  | .table _ members => members.isEmpty
  | _ => false

/-- A policy is its name, or a table with the name as its one key and nothing below it. -/
def policy? : Toml → Option UnclassifiedPolicy
  | .string name => policyNamed? name
  | .table _ [(name, item)] => if isEmptyItem item then policyNamed? name else none
  | _ => none

def names : List String :=
  ["app_root", "staging_base", "own_package", "namespace", "entry_suffix", "shared_modules_file",
    "browser_global", "tool_dependencies", "npm", "webpack", "unclassified", "reset_on_first_run",
    "platforms"]

def withoutUsual : Nat := 8

/-- An array has to give a value to every setting that has no usual one. -/
def longEnough : Toml → Bool
  | .array _ items => withoutUsual ≤ items.length
  | _ => true

def ofItem? (item : Toml) : Option Written := do
  if !longEnough item then none
  else match ← record? .refused names item with
    | [appRoot, stagingBase, ownPackage, sharedNamespace, entrySuffix, sharedModulesFile,
        browserGlobal, toolDependencies, npm, webpack, unclassified, resetOnFirstRun, platforms] =>
      some {
        appRoot := ← optional text? appRoot
        stagingBase := ← optional text? stagingBase
        ownPackage := ← optional text? ownPackage
        sharedNamespace := ← optional text? sharedNamespace
        entrySuffix := ← optional text? entrySuffix
        sharedModulesFile := ← optional text? sharedModulesFile
        browserGlobal := ← optional text? browserGlobal
        toolDependencies := ← optional (mapOf? text?) toolDependencies
        npm := ← orElse .standard npm? npm
        webpack := ← orElse .standard webpack? webpack
        unclassified := ← orElse .warn policy? unclassified
        resetOnFirstRun := ← orElse false bool? resetOnFirstRun
        platforms := ← orElse KeyMap.empty (mapOf? capabilities?) platforms }
    | _ => none

def ofDocument? (members : List (String × Toml)) : Option Written := do
  match ← named .passedOver ["bundler"] members with
  | [bundler] => orElse nothing ofItem? bundler
  | _ => none

def draft (written : Written) (base : Path) : Except Fault Draft := do
  let ownPackage ← written.ownPackage.mapM PackageId.parse
  .ok {
    appRoot := some (written.appRoot.elim base (base / ·))
    stagingBase := written.stagingBase.map (base / ·)
    ownPackage
    sharedNamespace := written.sharedNamespace
    entrySuffix := written.entrySuffix
    sharedModulesFile := written.sharedModulesFile
    browserGlobal := written.browserGlobal
    toolDependencies := written.toolDependencies
    npm := written.npm
    webpack := written.webpack
    unclassified := written.unclassified
    resetOnFirstRun := written.resetOnFirstRun
    platformOverrides := written.platforms }

end Written

/-- Reads settings; relative directories start from `base`, and that one from `workdir`. -/
def parse (workdir : RealPath) (text : String) (base : Path) : Except BuildError Settings :=
  match (Toml.read text).bind Written.ofDocument? with
  | none => .error (.config "Failed to parse settings")
  | some written =>
      ((written.draft base).bind (Draft.build workdir)).mapError (fun fault =>
        .config fault.message)

def load (disk : Disk) (path : Path) : Except BuildError Settings :=
  match disk.readText path with
  | .error cause => .error (.config ("Failed to read " ++ path.text ++ ": " ++ cause.message))
  | .ok text => parse disk.workdir text (path.parent.getD ⟨"."⟩)

end PlatformBundle.Settings
