import PlatformBundle.Disk.Operations
import PlatformBundle.Fault
import PlatformBundle.Text.Lines
import PlatformBundle.ToolLine
/-!
Child processes and what is kept of their output. Both streams are read line by line, neither
waiting for the other. The lines of the error stream are passed on, and the last ones are kept for
reports; the lines of the output stream are either passed on or collected.
-/

namespace PlatformBundle

inductive ExitStatus where
  | code (value : Nat)
  | signal (number : Nat)
  deriving DecidableEq

namespace ExitStatus

def signalNames : List String :=
  ["SIGHUP", "SIGINT", "SIGQUIT", "SIGILL", "SIGTRAP", "SIGABRT", "SIGBUS", "SIGFPE", "SIGKILL",
    "SIGUSR1", "SIGSEGV", "SIGUSR2", "SIGPIPE", "SIGALRM", "SIGTERM", "SIGSTKFLT", "SIGCHLD",
    "SIGCONT", "SIGSTOP", "SIGTSTP", "SIGTTIN", "SIGTTOU", "SIGURG", "SIGXCPU", "SIGXFSZ",
    "SIGVTALRM", "SIGPROF", "SIGWINCH", "SIGIO", "SIGPWR", "SIGSYS"]

def message : ExitStatus → String
  | .code value => "exit status: " ++ toString value
  | .signal number =>
      "signal: " ++ toString number ++ " (" ++
        (signalNames[number - 1]?.getD "unknown signal") ++ ")"

def isSuccess (status : ExitStatus) : Bool := status = .code 0

end ExitStatus

structure Child where
  status : ExitStatus
  stdout : List UInt8
  stderr : List UInt8
  disk : Disk

structure ToolOutput where
  status : ExitStatus
  /-- The collected lines, each followed by a newline. -/
  stdout : String
  stderrTail : List String
  deriving DecidableEq

/-- The two streams while they are read, each on its own: what is still to be read of them, what
has been collected of the one and kept of the other, and the lines that were passed on. -/
structure Reading where
  stdout : List UInt8
  stderr : List UInt8
  captured : String
  tail : List String
  passed : List (OutputStream × String)

namespace Reading

def tailLength : Nat := 20

/-- Keeps one more line; where there are enough, the oldest one goes. -/
def keep (tail : List String) (line : String) : List String :=
  (if tail.length = tailLength then tail.tail else tail) ++ [line]

def lineWithBreak (line : String) : String := line ++ "\n"

def pass (reading : Reading) (stream : OutputStream) (line : String) : Reading :=
  { reading with passed := reading.passed ++ [(stream, line)] }

def takeOutput (collect : Bool) (reading : Reading) (line : String) : Reading :=
  if collect then { reading with captured := reading.captured ++ lineWithBreak line }
  else reading.pass .stdout line

def takeError (reading : Reading) (line : String) : Reading :=
  { reading.pass .stderr line with tail := keep reading.tail line }

def step (collect : Bool) (reading : Reading) : OutputStream → Reading
  | .stdout =>
      match Text.nextLine reading.stdout with
      | none => reading
      | some (line, left) => { reading.takeOutput collect line with stdout := left }
  | .stderr =>
      match Text.nextLine reading.stderr with
      | none => reading
      | some (line, left) => { reading.takeError line with stderr := left }

def output (reading : Reading) (status : ExitStatus) : ToolOutput :=
  ⟨status, reading.captured, reading.tail⟩

def lines (reading : Reading) (tool : String) : List ToolLine :=
  reading.passed.map (fun line => ⟨tool, line.1, line.2⟩)

end Reading

namespace Child

/-- Reads the streams of a child line by line, in the order in which lines are taken from them. -/
def readIn (child : Child) (collect : Bool) (order : List OutputStream) : Reading :=
  order.foldl (Reading.step collect) ⟨child.stdout, child.stderr, "", [], []⟩

def oneByOne (child : Child) : List OutputStream :=
  List.replicate child.stdout.length .stdout ++ List.replicate child.stderr.length .stderr

def read (child : Child) (collect : Bool) : Reading := child.readIn collect child.oneByOne

def output (child : Child) (collect : Bool) : ToolOutput :=
  (child.read collect).output child.status

def lines (child : Child) (tool : String) (collect : Bool) : List ToolLine :=
  (child.read collect).lines tool

end Child

structure Host where
  /-- The directories in which a program without a directory is looked for. -/
  searchPath : List Path
  /-- Runs a program with arguments in a working directory until it ends. -/
  spawn : Disk → Path → Path → List String → Except IoCause Child

namespace Host

def isExecutable (disk : Disk) (path : Path) : Bool :=
  match disk.stat path with
  | .ok (_, .file _ executable) => executable
  | _ => false

def which (host : Host) (disk : Disk) (tool : String) : Option Path :=
  (host.searchPath.map (· / tool)).find? (isExecutable disk)

structure Finished where
  output : Except Fault ToolOutput
  disk : Disk
  lines : List ToolLine

def run (host : Host) (disk : Disk) (directory program : Path) (arguments : List String)
    (tool : String) (collect : Bool) : Finished :=
  match host.spawn disk directory program arguments with
  | .error cause => ⟨.error (.commandFailed tool cause), disk, []⟩
  | .ok child =>
      let reading := child.read collect
      ⟨.ok (reading.output child.status), child.disk, reading.lines tool⟩

end Host

end PlatformBundle
