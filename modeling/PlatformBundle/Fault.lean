import PlatformBundle.Disk.Cause
import PlatformBundle.Path
/-!
What can go wrong, as causes. A `Fault` is met inside a stage of a batch; a `BuildError` is what
the host sees, and names the stage and the platform of the batch. The wording of every fault is in
`Fault.message` and `BuildError.message`, and nowhere else.
-/

namespace PlatformBundle

structure Diagnostic where
  message : String
  sourcePath : Option String
  deriving DecidableEq

def Diagnostic.text (diagnostic : Diagnostic) : String :=
  match diagnostic.sourcePath with
  | some path => path ++ ": " ++ diagnostic.message
  | none => diagnostic.message

inductive Fault where
  | io (cause : IoCause)
  | onPath (doing : String) (path : Path) (cause : IoCause)
  | json
  | template (text : String)
  | commandFailed (command : String) (cause : IoCause)
  | toolNotFound (tool : String) (hint : String)
  | installFailed (command : String) (status : String) (stderr : List String)
  | missingDependencies (missing : List String)
  | compileFailed (diagnostics : List Diagnostic)
  | invalidPackageName (name : String) (reason : String)
  | general (text : String)
  deriving DecidableEq

def stderrText (lines : List String) : String :=
  if lines.isEmpty then "" else ":\n" ++ joinWith "\n" lines

def Fault.message : Fault → String
  | .io cause => cause.message
  | .onPath doing path cause => doing ++ " " ++ path.text ++ ": " ++ cause.message
  | .json => "JSON error"
  | .template text => "template error: " ++ text
  | .commandFailed command cause => "failed to run `" ++ command ++ "`: " ++ cause.message
  | .toolNotFound tool hint => "`" ++ tool ++ "` not found: " ++ hint
  | .installFailed command status stderr =>
      "`" ++ command ++ "` exited with " ++ status ++ stderrText stderr
  | .missingDependencies missing =>
      "dependencies missing after install: " ++ joinWith ", " missing
  | .compileFailed diagnostics =>
      "bundler reported " ++ toString diagnostics.length ++ " error(s):\n" ++
        joinWith "\n" (diagnostics.map Diagnostic.text)
  | .invalidPackageName name reason => "invalid package name `" ++ name ++ "`: " ++ reason
  | .general text => text

/-- The fault of a value that is not there, or of a cause told in words. -/
def Fault.inContext (context : String) : Option String → Fault
  | none => .general context
  | some cause => .general (context ++ ": " ++ cause)

def onPath {α : Type} (doing : String) (path : Path) : Except IoCause α → Except Fault α
  | .ok value => .ok value
  | .error cause => .error (.onPath doing path cause)

inductive Stage where
  | staging
  | dependencyInstall
  | bundling
  | stitching
  deriving DecidableEq

def Stage.label : Stage → String
  | .staging => "staging"
  | .dependencyInstall => "dependency installation"
  | .bundling => "bundling"
  | .stitching => "output stitching"

inductive BuildError where
  | inStage (stage : Stage) (platform : String) (cause : Fault)
  | config (reason : String)
  /-- A fault outside of any batch. -/
  | plain (cause : Fault)
  deriving DecidableEq

namespace BuildError

def message : BuildError → String
  | .inStage stage platform cause =>
      stage.label ++ " failed for platform `" ++ platform ++ "`: " ++ cause.message
  | .config reason => "Configuration error: " ++ reason
  | .plain cause => "Bundler error: " ++ cause.message

def failedStage : BuildError → Option Stage
  | .inStage stage _ _ => some stage
  | _ => none

def platformTag : BuildError → Option String
  | .inStage _ platform _ => some platform
  | _ => none

def cause : BuildError → Option Fault
  | .inStage _ _ cause => some cause
  | .config _ => none
  | .plain cause => some cause

def diagnostics (error : BuildError) : List Diagnostic :=
  match error.cause with
  | some (.compileFailed diagnostics) => diagnostics
  | _ => []

def suggestions (error : BuildError) : List String :=
  match error.failedStage with
  | some .staging =>
      ["Check that the staging directory is writable and the disk is not full"]
  | some .dependencyInstall =>
      ["Check the npm output above and the versions declared by each package",
        "Remove the staging root to force a clean install"]
  | some .bundling => ["Fix the reported compile errors in the listed entry files"]
  | some .stitching =>
      ["The bundler did not emit the expected chunks; check its configuration"]
  | none => ["Check the error message above for specific details"]

end BuildError

end PlatformBundle
