import PlatformBundle.Report
import PlatformBundle.World
/-!
Tools for a rehearsal: an installer and a bundling tool that do as they are told in advance, for
trying the stages where no real tool is at hand. The rehearsed bundling tool puts a text before
and after each source and calls the result a chunk.
-/

namespace PlatformBundle.Rehearsal

structure InstallerPlan where
  stdout : List String
  stderr : List String
  /-- The directories to make below the staging root. -/
  dirs : List String
  /-- What is printed by the failure, where there is to be one. -/
  failure : Option (List String)

structure PlannedError where
  message : String
  /-- The error is only reported when this entry is bundled. -/
  ifEntry : Option String

structure BundlerPlan where
  errors : List PlannedError
  /-- The entries that get no chunk. -/
  skip : List String
  before : String
  after : String
  shared : Option String
  verify : Bool

def makeDirs (root : Path) : List String → FileWork Unit
  | [] => pure ()
  | dir :: rest => do
      Files.makeDir (root / dir)
      makeDirs root rest

def install (plan : InstallerPlan) (disk : Disk) (root : Path) : ToolRun :=
  let work : FileWork Unit := do
    makeDirs root plan.dirs
    match plan.failure with
    | some stderr => throw (.installFailed "npm install" "exit status: 1" stderr)
    | none => pure ()
  let (result, disk) := work.onDisk disk
  { result
    disk
    lines := plan.stdout.map (ToolLine.mk "npm" .stdout) ++
      plan.stderr.map (ToolLine.mk "npm" .stderr) }

def messagesFor (plan : BundlerPlan) (config : BundleConfig) : List String :=
  (plan.errors.filter (fun error => error.ifEntry.all config.entry.contains)).map
    PlannedError.message

def writeChunks (plan : BundlerPlan) (config : BundleConfig) (root : Path) :
    List (String × String) → FileWork Unit
  | [] => pure ()
  | (stagedPath, source) :: rest => do
      if !plan.skip.contains stagedPath then
        let text ← Files.readText (root / source)
        Files.write (config.entryChunkPath stagedPath) (plan.before ++ text ++ plan.after)
      writeChunks plan config root rest

def emit (plan : BundlerPlan) (config : BundleConfig) (root : Path) : FileWork Unit := do
  writeChunks plan config root config.entry.entries
  match plan.shared with
  | some text => Files.write config.sharedChunkPath text
  | none => pure ()
  if plan.verify then config.verifyOutputs

def bundle (plan : BundlerPlan) (disk : Disk) (config : BundleConfig) (root : Path) : ToolRun :=
  let work : FileWork Unit := do
    match messagesFor plan config with
    | [] => emit plan config root
    | messages => throw (.compileFailed (Report.diagnostics config messages))
  let (result, disk) := work.onDisk disk
  { result, disk, lines := [⟨"webpack", .stdout, config.toJson.compactText⟩] }

def tools (installer : InstallerPlan) (bundler : BundlerPlan) : Tools where
  install := install installer
  bundle := bundle bundler

end PlatformBundle.Rehearsal
