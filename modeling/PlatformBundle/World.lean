import PlatformBundle.BundleConfig
import PlatformBundle.Platform
import PlatformBundle.ToolLine
/-!
What a batch works in. A batch is a task of calls: to the disk, to the log, to the record of
platforms that have run before, and to the two tools. A world answers them; it is shared by all
batches that run at the same time.
-/

namespace PlatformBundle

inductive Call where
  | file (call : DiskCall)
  | note (record : LogRecord)
  | beginPass (platform : Platform)
  | install (root : Path)
  | bundle (config : BundleConfig) (root : Path)
  deriving DecidableEq

@[reducible] def Call.Reply : Call → Type
  | .file call => call.Reply
  | .note _ => Unit
  | .beginPass _ => Bool
  | .install _ => Except Fault Unit
  | .bundle _ _ => Except Fault Unit

structure ToolRun where
  result : Except Fault Unit
  disk : Disk
  lines : List ToolLine

/-- The installer and the bundling tool. Each works in the staging root that it is given. -/
structure Tools where
  install : Disk → Path → ToolRun
  bundle : Disk → BundleConfig → Path → ToolRun

structure World where
  disk : Disk
  /-- The tags of the platforms that have begun a pass. -/
  begun : KeySet
  log : List LogRecord
  lines : List ToolLine

namespace World

def onDisk (disk : Disk) : World := ⟨disk, KeyMap.empty, [], []⟩

/-- Begins a pass for a platform and tells whether it is the first. -/
def beginPass (world : World) (platform : Platform) : Bool × World :=
  (!world.begun.contains platform.tag, { world with begun := KeySet.add world.begun platform.tag })

def afterTool (world : World) (run : ToolRun) : Except Fault Unit × World :=
  (run.result, { world with disk := run.disk, lines := world.lines ++ run.lines })

def answer (tools : Tools) : (call : Call) → World → call.Reply × World
  | .file call, world =>
      let (reply, disk) := call.answer world.disk
      (reply, { world with disk })
  | .note record, world => ((), { world with log := world.log ++ [record] })
  | .beginPass platform, world => world.beginPass platform
  | .install root, world => world.afterTool (tools.install world.disk root)
  | .bundle config root, world => world.afterTool (tools.bundle world.disk config root)

end World

abbrev WorldTask := Task Call.Reply

def WorldTask.inWorld {α : Type} (task : WorldTask α) (tools : Tools) (world : World) : α × World :=
  Task.run (World.answer tools) task world

def WorldTask.ask (call : Call) : WorldTask call.Reply := Task.ask call

abbrev Work := ExceptT Fault WorldTask

namespace Work

variable {α : Type}

def ask (call : Call) : Work call.Reply := ExceptT.lift (WorldTask.ask call)

def note (level : LogLevel) (message : String) : Work Unit := ask (.note ⟨level, message⟩)

end Work

def DiskTask.inTask {α : Type} (task : DiskTask α) : WorldTask α :=
  Task.lift Call.file (fun _ reply => reply) task

def FileWork.inWork {α : Type} (work : FileWork α) : Work α :=
  ExceptT.mk (DiskTask.inTask work.run)

end PlatformBundle
