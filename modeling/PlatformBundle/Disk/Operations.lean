import PlatformBundle.Disk.Lookup
/-!
What a program can do to a disk. Each operation gives the disk it leaves behind beside its result,
because one that fails half way has already changed something: `createDirs` keeps the directories
made before the failure, `removeTree` what it has removed.
-/

namespace PlatformBundle

abbrev DiskResult (α : Type) := Except IoCause α × Disk

namespace Disk

def withTree (disk : Disk) (tree : FileTree) : Disk := { disk with tree }

def isDotName (name : String) : Bool := name == "." || name == ".."

def makeDir (disk : Disk) (path : Path) : DiskResult Unit :=
  match disk.locateLast path with
  | .error cause => (.error cause, disk)
  | .ok none => (.error .fileExists, disk)
  | .ok (some last) =>
      if isDotName last.name then (.error .fileExists, disk)
      else if longestName < last.name.utf8ByteSize then (.error .nameTooLong, disk)
      else
        let place := last.directory ++ [last.name]
        match disk.tree.get? place with
        | some _ => (.error .fileExists, disk)
        | none => (.ok (), disk.withTree (disk.tree.put place .directory))

-- The paths above a path, nearest first, as far up as there is something to make.
def ancestorsUpTo : Nat → Path → List Path
  | 0, _ => []
  | fuel + 1, path =>
      if path.text.isEmpty then []
      else match path.parent with
        | none => []
        | some above => path :: ancestorsUpTo fuel above

/-- The path itself and the paths above it, without the empty path and the root. -/
def ancestors (path : Path) : List Path := ancestorsUpTo (path.text.length + 1) path

/-- Makes a directory unless it is there already; a missing parent is left to the caller. -/
def makeDirIfMissing (disk : Disk) (path : Path) : DiskResult Unit :=
  match disk.makeDir path with
  | (.ok (), made) => (.ok (), made)
  | (.error .fileExists, same) =>
      if disk.isDirectory path then (.ok (), same) else (.error .fileExists, same)
  | (.error cause, same) => (.error cause, same)

-- Goes up until a directory can be made or is there, then makes the ones passed on the way.
def makeFrom (disk : Disk) : List Path → DiskResult Unit
  | [] => (.ok (), disk)
  | path :: above =>
      match disk.makeDirIfMissing path with
      | (.error .notFound, same) =>
          match makeFrom same above with
          | (.ok (), made) => made.makeDirIfMissing path
          | (.error cause, made) => (.error cause, made)
      | done => done

def createDirs (disk : Disk) (path : Path) : DiskResult Unit := disk.makeFrom (ancestors path)

def removeDir (disk : Disk) (path : Path) : DiskResult Unit :=
  match disk.locateLast path with
  | .error cause => (.error cause, disk)
  | .ok none => (.error .busy, disk)
  | .ok (some last) =>
      if last.name = "." then (.error .invalidArgument, disk)
      else if last.name = ".." then (.error .notEmpty, disk)
      else
        let place := last.directory ++ [last.name]
        match disk.tree.get? place with
        | none => (.error .notFound, disk)
        | some .directory =>
            if disk.tree.hasBelow place then (.error .notEmpty, disk)
            else (.ok (), disk.withTree (disk.tree.erase place))
        | some _ => (.error .notDirectory, disk)

def removeFile (disk : Disk) (path : Path) : DiskResult Unit :=
  match disk.locate false path with
  | .error cause => (.error cause, disk)
  | .ok (.vacant _ _) => (.error .notFound, disk)
  | .ok (.present _ .directory) => (.error .isDirectory, disk)
  | .ok (.present place _) => (.ok (), disk.withTree (disk.tree.erase place))

/-- Removes a directory with everything below it; a link is removed and not followed. -/
def removeTree (disk : Disk) (path : Path) : DiskResult Unit :=
  match disk.locate false path with
  | .error cause => (.error cause, disk)
  | .ok (.vacant _ _) => (.error .notFound, disk)
  | .ok (.present place (.link _)) => (.ok (), disk.withTree (disk.tree.erase place))
  | .ok (.present _ (.file _ _)) => (.error .notDirectory, disk)
  | .ok (.present place .directory) =>
      let emptied := disk.withTree (disk.tree.eraseBelow place)
      match emptied.removeDir path with
      | (.error .notFound, left) => (.ok (), left)
      | done => done

def write (disk : Disk) (path : Path) (content : ByteArray) : DiskResult Unit :=
  match disk.locateLast path with
  | .error cause => (.error cause, disk)
  | .ok none => (.error .isDirectory, disk)
  | .ok (some last) =>
      if last.slash || isDotName last.name then (.error .isDirectory, disk)
      else match disk.locate true path with
        | .error cause => (.error cause, disk)
        | .ok (.vacant directory name) =>
            (.ok (), disk.withTree (disk.tree.put (directory ++ [name]) (.file content false)))
        | .ok (.present place (.file _ executable)) =>
            (.ok (), disk.withTree (disk.tree.put place (.file content executable)))
        | .ok (.present _ _) => (.error .isDirectory, disk)

def setExecutable (disk : Disk) (path : Path) (executable : Bool) : DiskResult Unit :=
  match disk.stat path with
  | .error cause => (.error cause, disk)
  | .ok (place, .file content _) =>
      (.ok (), disk.withTree (disk.tree.put place (.file content executable)))
  | .ok _ => (.ok (), disk)

def makeLink (disk : Disk) (target : String) (path : Path) : DiskResult Unit :=
  match disk.locateLast path with
  | .error cause => (.error cause, disk)
  | .ok none => (.error .fileExists, disk)
  | .ok (some last) =>
      let place := last.directory ++ [last.name]
      if isDotName last.name || (disk.tree.get? place).isSome then (.error .fileExists, disk)
      else if last.slash || target.isEmpty then (.error .notFound, disk)
      else if longestName < last.name.utf8ByteSize then (.error .nameTooLong, disk)
      else (.ok (), disk.withTree (disk.tree.put place (.link target)))

def read (disk : Disk) (path : Path) : Except IoCause ByteArray := do
  match ← disk.stat path with
  | (_, .file content _) => .ok content
  | _ => .error .isDirectory

def readText (disk : Disk) (path : Path) : Except IoCause String := do
  match String.fromUTF8? (← disk.read path) with
  | some text => .ok text
  | none => .error .notText

def list (disk : Disk) (path : Path) : Except IoCause (List String) := do
  match ← disk.stat path with
  | (place, .directory) => .ok (disk.tree.children place)
  | _ => .error .notDirectory

def filesBelow (disk : Disk) (path : Path) : List String :=
  match disk.stat path with
  | .ok (place, .directory) =>
      let files := (disk.tree.below place).filterMap (fun entry =>
        match entry.2 with
        | .file _ _ => some entry.1
        | _ => none)
      (files.mergeSort (fun first second => !(decide (second < first)))).map (joinWith "/")
  | _ => []

end Disk

end PlatformBundle
