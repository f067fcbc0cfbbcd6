import PlatformBundle.BundleConfig
import PlatformBundle.Proofs.Sequencing
/-!
Work with files, step by step on a disk. Each piece of work comes to its calls one after the other,
and a world sees of it what the disk sees.
-/

namespace PlatformBundle

theorem onPath_eq_ok_iff {α : Type} {doing : String} {path : Path} {reply : Except IoCause α}
    {value : α} : onPath doing path reply = .ok value ↔ reply = .ok value := by
  cases reply <;> simp [onPath]

namespace FileWork

variable {α β : Type} (disk : Disk)

@[simp] theorem onDisk_pure (value : α) :
    onDisk (pure value) disk = (.ok value, disk) := rfl

@[simp] theorem onDisk_throw (fault : Fault) :
    onDisk (throw fault : FileWork α) disk = (.error fault, disk) := rfl

@[simp] theorem onDisk_ask (call : DiskCall) :
    onDisk (ask call) disk = (.ok (call.answer disk).1, (call.answer disk).2) := rfl

@[simp] theorem onDisk_checked (doing : String) (path : Path) (reply : Except IoCause α) :
    onDisk (checked doing path reply) disk = (onPath doing path reply, disk) := rfl

@[simp] theorem onDisk_lift (task : DiskTask α) :
    onDisk (ExceptT.lift task) disk = (.ok (task.onDisk disk).1, (task.onDisk disk).2) :=
  Task.run_bind DiskCall.answer task (fun value => .done (.ok value : Except Fault α)) disk

theorem onDisk_bind (first : FileWork α) (follow : α → FileWork β) :
    onDisk (first >>= follow) disk =
      match onDisk first disk with
      | (.ok value, middle) => onDisk (follow value) middle
      | (.error fault, middle) => (.error fault, middle) := by
  refine (Task.run_except_bind DiskCall.answer first follow disk).trans ?_
  unfold onDisk DiskTask.onDisk
  rcases Task.run DiskCall.answer first.run disk with ⟨fault | value, middle⟩ <;> rfl

theorem onDisk_bind_ok_iff {first : FileWork α} {follow : α → FileWork β} {left : Disk}
    {result : β} : onDisk (first >>= follow) disk = (.ok result, left) ↔
      ∃ value middle, onDisk first disk = (.ok value, middle) ∧
        onDisk (follow value) middle = (.ok result, left) :=
  Task.run_bind_ok_iff DiskCall.answer first follow disk left result

theorem onDisk_then_ok_iff {first : FileWork Unit} {follow : FileWork β} {left : Disk}
    {result : β} : onDisk (first >>= fun _ => follow) disk = (.ok result, left) ↔
      ∃ middle, onDisk first disk = (.ok (), middle) ∧
        onDisk follow middle = (.ok result, left) := by
  rw [onDisk_bind_ok_iff]
  constructor
  · rintro ⟨⟨⟩, middle, begins, ends⟩
    exact ⟨middle, begins, ends⟩
  · rintro ⟨middle, begins, ends⟩
    exact ⟨(), middle, begins, ends⟩

variable {disk}

theorem row_append_ok_iff {item : Type} {row : List item → FileWork Unit}
    {step : item → FileWork Unit} (nil : row [] = pure ())
    (cons : ∀ first rest, row (first :: rest) = step first >>= fun _ => row rest)
    {items others : List item} {left : Disk} :
    onDisk (row (items ++ others)) disk = (.ok (), left) ↔
      ∃ middle, onDisk (row items) disk = (.ok (), middle) ∧
        onDisk (row others) middle = (.ok (), left) := by
  induction items generalizing disk with
  | nil =>
      rw [List.nil_append, nil]
      constructor
      · intro done
        exact ⟨disk, rfl, done⟩
      · rintro ⟨middle, ⟨⟩, later⟩
        exact later
  | cons first rest ih =>
      rw [List.cons_append, cons, cons, onDisk_then_ok_iff]
      simp only [ih, onDisk_then_ok_iff]
      constructor
      · rintro ⟨middle, begins, between, goes, later⟩
        exact ⟨between, ⟨middle, begins, goes⟩, later⟩
      · rintro ⟨between, ⟨middle, begins, goes⟩, later⟩
        exact ⟨middle, begins, between, goes, later⟩

end FileWork

namespace Files

variable {disk left : Disk} {path : Path}

theorem makeDir_onDisk : (makeDir path).onDisk disk =
    (onPath "creating directory" path (disk.createDirs path).1, (disk.createDirs path).2) := rfl

theorem readText_onDisk : (readText path).onDisk disk =
    (onPath "reading file" path (disk.readText path), disk) := rfl

theorem readText_ok_iff {text : String} : (readText path).onDisk disk = (.ok text, left) ↔
    disk.readText path = .ok text ∧ left = disk := by
  rw [readText_onDisk, Prod.mk.injEq, onPath_eq_ok_iff, eq_comm (a := disk)]

theorem makeDir_ok_iff : (makeDir path).onDisk disk = (.ok (), left) ↔
    disk.createDirs path = (.ok (), left) := by
  rw [makeDir_onDisk, Prod.mk.injEq, onPath_eq_ok_iff, ← Prod.mk.injEq]

-- A directory that is not there counts as removed.
theorem removeDir_ok_iff : (removeDir path).onDisk disk = (.ok (), left) ↔
    (disk.removeTree path).2 = left ∧ ((disk.removeTree path).1 = .ok () ∨
      (disk.removeTree path).1 = .error .notFound) := by
  rw [removeDir, FileWork.onDisk_bind, FileWork.onDisk_ask]
  simp only [DiskCall.answer]
  rcases disk.removeTree path with ⟨cause | value, removed⟩
  · cases cause <;> simp [onPath]
  · simp [onPath]

/-- The end of `write`: the file itself, in a directory that is there by then. -/
def writeHere (path : Path) (text : String) : FileWork Unit := do
  FileWork.checked "writing file" path (← FileWork.ask (.write path text))

theorem write_eq (path : Path) (text : String) : write path text =
    match path.parent with
    | some above => makeDir above >>= fun _ => writeHere path text
    | none => writeHere path text := by
  unfold write
  cases path.parent <;> rfl

theorem writeHere_onDisk {text : String} : (writeHere path text).onDisk disk =
    (onPath "writing file" path (disk.write path text.toUTF8).1,
      (disk.write path text.toUTF8).2) := rfl

theorem writeHere_ok_iff {text : String} : (writeHere path text).onDisk disk = (.ok (), left) ↔
    disk.write path text.toUTF8 = (.ok (), left) := by
  rw [writeHere_onDisk, Prod.mk.injEq, onPath_eq_ok_iff, ← Prod.mk.injEq]

theorem write_ok_iff {above : Path} (parent : path.parent = some above) {text : String} :
    (write path text).onDisk disk = (.ok (), left) ↔
      ∃ made, disk.createDirs above = (.ok (), made) ∧
        made.write path text.toUTF8 = (.ok (), left) := by
  rw [write_eq, parent]
  simp only [FileWork.onDisk_then_ok_iff, makeDir_ok_iff, writeHere_ok_iff]

end Files

namespace BundleConfig

theorem missingChunks_onDisk (paths : List Path) (disk : Disk) :
    (missingChunks paths).onDisk disk = (paths.filter (fun path => !disk.exists? path), disk) := by
  induction paths with
  | nil => rfl
  | cons path rest ih =>
      have ahead : (missingChunks (path :: rest)).onDisk disk =
          (if disk.exists? path then ((missingChunks rest).onDisk disk).1
            else path :: ((missingChunks rest).onDisk disk).1,
            ((missingChunks rest).onDisk disk).2) :=
        Task.run_bind DiskCall.answer (missingChunks rest) _ disk
      rw [ahead, ih, List.filter_cons]
      cases disk.exists? path <;> rfl

def missingReport (config : BundleConfig) (disk : Disk) (path : Path) : Diagnostic where
  message := missingText ((disk.filesBelow config.outputPath).map (replaceChar '\\' '/')) path
  sourcePath := none

def absentChunks (config : BundleConfig) (disk : Disk) : List Path :=
  config.expectedChunks.filter (fun path => !disk.exists? path)

theorem absentChunks_eq_nil_iff {config : BundleConfig} {disk : Disk} :
    config.absentChunks disk = [] ↔
      ∀ chunk ∈ config.expectedChunks, disk.exists? chunk = true := by
  simp [absentChunks, List.filter_eq_nil_iff]

theorem verifyOutputs_onDisk (config : BundleConfig) (disk : Disk) :
    config.verifyOutputs.onDisk disk =
      (if config.absentChunks disk = [] then .ok ()
        else .error (.compileFailed ((config.absentChunks disk).map (config.missingReport disk))),
        disk) := by
  rw [verifyOutputs, FileWork.onDisk_bind, FileWork.onDisk_lift, missingChunks_onDisk]
  unfold absentChunks
  cases config.expectedChunks.filter (fun path => !disk.exists? path) with
  | nil => rfl
  | cons path rest => rfl

end BundleConfig

end PlatformBundle
