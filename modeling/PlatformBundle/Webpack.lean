import PlatformBundle.ConfigModule
import PlatformBundle.Report
import PlatformBundle.Settings.Basic
import PlatformBundle.ToolSearch
import PlatformBundle.World
/-!
Bundling with webpack. The configuration module is written into the staging root, the tool runs
there and prints its report, and the run counts as a success only when the tool says so, the
report holds no error and every expected chunk is there.
-/

namespace PlatformBundle.Webpack

def arguments (settings : WebpackSettings) : List String :=
  ["--config", settings.configFile, "--json"]

def exitText (output : ToolOutput) : String :=
  "webpack exited with " ++ output.status.message ++
    (if output.stderrTail.isEmpty then "" else "\n" ++ joinWith "\n" output.stderrTail)

/-- The messages of a run: those of its report, or the error lines of a failed run without one. -/
def messagesOf (output : ToolOutput) : Except Fault (List String) :=
  match Report.messages output.stdout with
  | .ok messages => .ok messages
  | .error _ =>
      if output.status.isSuccess then .error (.general "could not read webpack stats")
      else .ok output.stderrTail

def judge (config : BundleConfig) (disk : Disk) (output : ToolOutput) : Except Fault Unit := do
  match ← messagesOf output with
  | [] =>
      if output.status.isSuccess then (config.verifyOutputs.onDisk disk).1
      else .error (.compileFailed [⟨exitText output, none⟩])
  | messages => .error (.compileFailed (Report.diagnostics config messages))

def writeModule (settings : WebpackSettings) (config : BundleConfig) (root : Path) :
    FileWork Unit :=
  Files.write (root / settings.configFile) (ConfigModule.render config)

def runWith (host : Host) (settings : WebpackSettings) (disk : Disk) (config : BundleConfig)
    (root program : Path) : ToolRun :=
  let finished := host.run disk root program (arguments settings) "webpack" true
  ⟨finished.output.bind (judge config finished.disk), finished.disk, finished.lines⟩

def bundle (host : Host) (settings : WebpackSettings) (disk : Disk) (config : BundleConfig)
    (root : Path) : ToolRun :=
  match (writeModule settings config root).onDisk disk with
  | (.error fault, disk) => ⟨.error fault, disk, []⟩
  | (.ok (), disk) =>
      match ToolSearch.resolve host disk "webpack" settings.program (some root) with
      | .error fault => ⟨.error fault, disk, []⟩
      | .ok program => runWith host settings disk config root program

end PlatformBundle.Webpack
