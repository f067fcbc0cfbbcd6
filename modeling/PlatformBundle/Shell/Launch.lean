import PlatformBundle.Shell.Evaluation
/-!
A host that runs scripts. A program is found as the operating system finds it: a path with a
separator names a file, from the working directory of the new process; any other name is looked for
on the search path. A script reads nothing and knows no variable but the search path.
-/

namespace PlatformBundle.Shell.Launch

/-- What running the first usable file of a name comes to; a file that may not be run is passed
over, but it is why nothing could be run where no other file is found. -/
def search (disk : Disk) (name : String) (arguments : List String) :
    IoCause → List Path → Except IoCause Invocation
  | cause, [] => .error cause
  | cause, directory :: rest =>
      match Invocation.ofFile disk (directory / name) arguments with
      | .ok invocation => .ok invocation
      | .error .notFound => search disk name arguments cause rest
      | .error .notDirectory => search disk name arguments cause rest
      | .error .permissionDenied => search disk name arguments .permissionDenied rest
      | .error other => .error other

def invocation (searchPath : List Path) (disk : Disk) (program : Path)
    (arguments : List String) : Except IoCause Invocation :=
  if program.text.toList.contains '/' then Invocation.ofFile disk program arguments
  else if program.text.isEmpty then .error .notFound
  else search disk program.text arguments .notFound searchPath

def hasNul (text : String) : Bool := text.toList.contains '\x00'

def enter (disk : Disk) (directory : Path) : Except IoCause Disk := do
  match ← disk.stat directory with
  | (place, .directory) => .ok ⟨disk.tree, place⟩
  | _ => .error .notDirectory

def bindings (searchPath : List Path) : KeyMap String :=
  KeyMap.empty.insert "PATH" (joinWith ":" (searchPath.map Path.text))

def statusOf (session : Session) : Outcome → ExitStatus
  | .killed signal => .signal signal
  | .exit status => .code status
  | _ => .code session.status

def run (searchPath : List Path) (disk : Disk) (invocation : Invocation) : Child :=
  let session :=
    Session.start disk (bindings searchPath) invocation.name invocation.arguments
  let (outcome, ended) := evaluate invocation.script session
  { status := statusOf ended outcome
    stdout := (ended.output 0).data.toList
    stderr := (ended.output 1).data.toList
    disk := ⟨ended.disk.tree, disk.workdir⟩ }

def spawn (searchPath : List Path) (disk : Disk) (directory program : Path)
    (arguments : List String) : Except IoCause Child := do
  if (directory.text :: program.text :: arguments).any hasNul then throw .nulInProgram
  let entered ← enter disk directory
  let found ← invocation searchPath entered program arguments
  let child := run searchPath entered found
  .ok { child with disk := ⟨child.disk.tree, disk.workdir⟩ }

def host (searchPath : List Path) : Host where
  searchPath := searchPath
  spawn := spawn searchPath

end PlatformBundle.Shell.Launch
