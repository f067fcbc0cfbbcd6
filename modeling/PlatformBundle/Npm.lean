import PlatformBundle.Manifest
import PlatformBundle.Settings.Basic
import PlatformBundle.ToolSearch
import PlatformBundle.World
/-!
Installing with npm. The manifest at the top of the staging root has to be readable before the
tool is looked for; the tool then runs in the staging root, and its lines are passed on.
-/

namespace PlatformBundle.Npm

def arguments (settings : NpmSettings) : List String :=
  ["install", "--no-audit", "--no-fund", "--loglevel=" ++ settings.loglevel] ++ settings.extraArgs

def commandLine (settings : NpmSettings) : String :=
  "npm " ++ joinWith " " (arguments settings)

def judge (settings : NpmSettings) (output : ToolOutput) : Except Fault Unit :=
  if output.status.isSuccess then .ok ()
  else .error (.installFailed (commandLine settings) output.status.message output.stderrTail)

def ready (host : Host) (settings : NpmSettings) (disk : Disk) (root : Path) :
    Except Fault Path := do
  let text ← ((Files.readText (root / manifestFile)).onDisk disk).1
  let _ ← TopManifest.read text
  ToolSearch.resolve host disk "npm" settings.program none

def install (host : Host) (settings : NpmSettings) (disk : Disk) (root : Path) : ToolRun :=
  match ready host settings disk root with
  | .error fault => ⟨.error fault, disk, []⟩
  | .ok program =>
      let finished := host.run disk root program (arguments settings) "npm" false
      ⟨finished.output.bind (judge settings), finished.disk, finished.lines⟩

end PlatformBundle.Npm
