import PlatformBundle.Disk.Operations
import PlatformBundle.Shell.Command
/-!
What a running script has: a disk with a working directory, its open descriptors, its variables and
its arguments. What a script writes is collected in outputs, of which the first two belong to the
outside; what it reads comes from inputs. Descriptors are numbers for either, or for a file.
-/

namespace PlatformBundle.Shell

inductive Channel where
  | output (index : Nat)
  | input (index : Nat)
  | file (place : RealPath)
  | nowhere
  deriving DecidableEq

/-- A command that is still to be run, in the surroundings in which it was met. -/
structure Job where
  body : Command
  channels : List (Nat × Channel)
  workdir : RealPath
  bindings : KeyMap String
  arguments : List String

structure Session where
  disk : Disk
  channels : List (Nat × Channel)
  outputs : Array ByteArray
  /-- What is still to be read of each input. -/
  inputs : Array (List UInt8)
  bindings : KeyMap String
  arguments : List String
  name : String
  line : Nat
  status : Nat
  jobs : List Job
  /-- A command that fails ends the script, unless its failure is being asked for. -/
  strict : Bool

namespace Session

def start (disk : Disk) (bindings : KeyMap String) (name : String) (arguments : List String) :
    Session where
  disk := disk
  channels := [(0, .nowhere), (1, .output 0), (2, .output 1)]
  outputs := #[ByteArray.empty, ByteArray.empty]
  inputs := #[]
  bindings := bindings
  arguments := arguments
  name := name
  line := 1
  status := 0
  jobs := []
  strict := false

def channel? (session : Session) (descriptor : Nat) : Option Channel :=
  (session.channels.find? (fun entry => entry.1 == descriptor)).map Prod.snd

def close (session : Session) (descriptor : Nat) : Session :=
  { session with channels := session.channels.filter (fun entry => entry.1 != descriptor) }

def connect (session : Session) (descriptor : Nat) (channel : Channel) : Session :=
  { session with channels := (descriptor, channel) :: (session.close descriptor).channels }

def output (session : Session) (index : Nat) : ByteArray :=
  session.outputs[index]?.getD ByteArray.empty

def openOutput (session : Session) : Channel × Session :=
  (.output session.outputs.size,
    { session with outputs := session.outputs.push ByteArray.empty })

def openInput (session : Session) (bytes : List UInt8) : Channel × Session :=
  (.input session.inputs.size, { session with inputs := session.inputs.push bytes })

def appendToFile (disk : Disk) (place : RealPath) (bytes : ByteArray) : Disk :=
  match disk.tree.get? place with
  | some (.file content executable) =>
      disk.withTree (disk.tree.put place (.file (content ++ bytes) executable))
  | _ => disk

def write? (session : Session) (descriptor : Nat) (bytes : ByteArray) : Option Session :=
  match session.channel? descriptor with
  | some (.output index) =>
      some { session with outputs := session.outputs.modify index (· ++ bytes) }
  | some (.file place) => some { session with disk := appendToFile session.disk place bytes }
  | some .nowhere => some session
  | some (.input _) => none
  | none => none

def complain (session : Session) (text : String) : Session :=
  let line := session.name ++ ": " ++ toString session.line ++ ": " ++ text ++ "\n"
  (session.write? 2 line.toUTF8).getD session

def withStatus (session : Session) (status : Nat) : Session := { session with status }

def failing (session : Session) (text : String) (status : Nat) : Session :=
  (session.complain text).withStatus status

def takeAll (session : Session) : List UInt8 × Session :=
  match session.channel? 0 with
  | some (.input index) =>
      (session.inputs[index]?.getD [],
        { session with inputs := session.inputs.setIfInBounds index [] })
  | _ => ([], session)

def takeLine (session : Session) : List UInt8 × Bool × Session :=
  match session.channel? 0 with
  | some (.input index) =>
      let (line, rest) := (session.inputs[index]?.getD []).span (· != 10)
      (line, !rest.isEmpty,
        { session with inputs := session.inputs.setIfInBounds index (rest.drop 1) })
  | _ => ([], false, session)

def set (session : Session) (name value : String) : Session :=
  { session with bindings := session.bindings.insert name value }

def setAll (session : Session) (assignments : List (String × String)) : Session :=
  assignments.foldl (fun session assignment => session.set assignment.1 assignment.2) session

/-- What a subshell leaves behind: all it has done to the disk and to the streams, nothing else. -/
def afterSubshell (session inner : Session) : Session :=
  { session with
    disk := ⟨inner.disk.tree, session.disk.workdir⟩
    outputs := inner.outputs
    inputs := inner.inputs
    jobs := inner.jobs
    status := inner.status }

def postpone (session : Session) (body : Command) : Session :=
  let job : Job :=
    ⟨body, session.channels, session.disk.workdir, session.bindings, session.arguments⟩
  { session with jobs := session.jobs ++ [job], status := 0 }

def forJob (session : Session) (job : Job) : Session :=
  { session with
    disk := ⟨session.disk.tree, job.workdir⟩
    channels := job.channels
    bindings := job.bindings
    arguments := job.arguments
    jobs := [] }

def processNumber : Nat := 4242

def value (session : Session) (name : String) : String :=
  match name with
  | "@" | "*" => joinWith " " session.arguments
  | "#" => toString session.arguments.length
  | "?" => toString session.status
  | "$" => toString processNumber
  | "0" => session.name
  | "LINENO" => toString session.line
  | _ =>
      match name.toNat? with
      | some position => session.arguments[position - 1]?.getD ""
      | none => (session.bindings.get? name).getD ""

end Session

end PlatformBundle.Shell
