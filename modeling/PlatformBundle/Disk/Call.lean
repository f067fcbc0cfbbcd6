import PlatformBundle.Disk.Operations
import PlatformBundle.Task
/-!
The calls that a task can make to a disk, and the disk's answers to them. Each call is one
operation of the disk; between two calls of one task the disk may serve another.
-/

namespace PlatformBundle

inductive DiskCall where
  | removeTree (path : Path)
  | createDirs (path : Path)
  | write (path : Path) (text : String)
  | readText (path : Path)
  | list (path : Path)
  | isDirectory (path : Path)
  | isThere (path : Path)
  | filesBelow (path : Path)
  deriving DecidableEq

namespace DiskCall

@[reducible] def Reply : DiskCall → Type
  | .removeTree _ => Except IoCause Unit
  | .createDirs _ => Except IoCause Unit
  | .write _ _ => Except IoCause Unit
  | .readText _ => Except IoCause String
  | .list _ => Except IoCause (List String)
  | .isDirectory _ => Bool
  | .isThere _ => Bool
  | .filesBelow _ => List String

def answer : (call : DiskCall) → Disk → call.Reply × Disk
  | .removeTree path, disk => disk.removeTree path
  | .createDirs path, disk => disk.createDirs path
  | .write path text, disk => disk.write path text.toUTF8
  | .readText path, disk => (disk.readText path, disk)
  | .list path, disk => (disk.list path, disk)
  | .isDirectory path, disk => (disk.isDirectory path, disk)
  | .isThere path, disk => (disk.exists? path, disk)
  | .filesBelow path, disk => (disk.filesBelow path, disk)

end DiskCall

abbrev DiskTask := Task DiskCall.Reply

def DiskTask.onDisk {α : Type} (task : DiskTask α) (disk : Disk) : α × Disk :=
  Task.run DiskCall.answer task disk

end PlatformBundle
