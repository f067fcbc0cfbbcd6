import PlatformBundle.Disk.Call
import PlatformBundle.Fault
/-!
What the stages do with files. Each piece of work is a task of disk calls that stops at the first
call that fails, and its fault names the operation and the path.
-/

namespace PlatformBundle

abbrev FileWork := ExceptT Fault DiskTask

namespace FileWork

variable {α : Type}

def onDisk (work : FileWork α) (disk : Disk) : Except Fault α × Disk :=
  DiskTask.onDisk work.run disk

def ask (call : DiskCall) : FileWork call.Reply := ExceptT.lift (Task.ask call)

def checked (doing : String) (path : Path) (reply : Except IoCause α) : FileWork α :=
  ExceptT.mk (pure (onPath doing path reply))

end FileWork

namespace Files

open FileWork

/-- Removes a directory with its contents; a missing one is no fault. -/
def removeDir (path : Path) : FileWork Unit := do
  match ← ask (.removeTree path) with
  | .error .notFound => pure ()
  | reply => checked "removing directory" path reply

def makeDir (path : Path) : FileWork Unit := do
  checked "creating directory" path (← ask (.createDirs path))

def remakeDir (path : Path) : FileWork Unit := do
  removeDir path
  makeDir path

def ensureDir (path : Path) (erase : Bool) : FileWork Unit :=
  if erase then remakeDir path else makeDir path

def write (path : Path) (text : String) : FileWork Unit := do
  match path.parent with
  | some above => makeDir above
  | none => pure ()
  checked "writing file" path (← ask (.write path text))

def readText (path : Path) : FileWork String := do
  checked "reading file" path (← ask (.readText path))

/-- Tells whether something stands in a directory; what is missing or no directory is empty. -/
def hasEntries (path : Path) : FileWork Bool := do
  match ← ask (.list path) with
  | .error .notFound => pure false
  | .error .notDirectory => pure false
  | reply => do
      let names ← checked "reading directory" path reply
      pure !names.isEmpty

end Files

end PlatformBundle
