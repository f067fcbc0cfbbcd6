import PlatformBundle.Proofs.FileSteps
/-!
Work that calls no tool. It asks the disk and writes to the log, so what it comes to depends on the
disk alone: run in any world it does what `onDisk` says, and adds to the log.
-/

namespace PlatformBundle

def Call.isTool : Call → Bool
  | .install _ => true
  | .bundle _ _ => true
  | _ => false

def Call.IsPlain : Call → Prop
  | .file _ => True
  | .note _ => True
  | _ => False

theorem Call.isTool_of_isPlain {call : Call} (plain : call.IsPlain) : call.isTool = false := by
  cases call with
  | file call => rfl
  | note record => rfl
  | beginPass platform => exact plain.elim
  | install root => exact plain.elim
  | bundle config root => exact plain.elim

namespace WorldTask

variable {α β : Type}

def toolCalls (task : WorldTask α) (tools : Tools) (world : World) : List Call :=
  (Task.calls (World.answer tools) task world).filter Call.isTool

def IsPlain (task : WorldTask α) : Prop := Task.Within Call.IsPlain task

def idleTools : Tools := ⟨fun disk _ => ⟨.ok (), disk, []⟩, fun disk _ _ => ⟨.ok (), disk, []⟩⟩

def alone (task : WorldTask α) (disk : Disk) : α × World :=
  task.inWorld idleTools (World.onDisk disk)

theorem inWorld_file (call : DiskCall) (next : call.Reply → WorldTask α) (tools : Tools)
    (world : World) : inWorld (.call (.file call) next) tools world =
      inWorld (next (call.answer world.disk).1) tools
        { world with disk := (call.answer world.disk).2 } := rfl

theorem inWorld_note (record : LogRecord) (next : Unit → WorldTask α) (tools : Tools)
    (world : World) : inWorld (.call (.note record) next) tools world =
      inWorld (next ()) tools { world with log := world.log ++ [record] } := rfl

-- A call to the log leaves a world that is not fresh, so both sides are followed call by call.
theorem inWorld_of_isPlain {task : WorldTask α} (plain : task.IsPlain) (tools : Tools)
    (world : World) : task.inWorld tools world =
      ((task.alone world.disk).1, { world with
        disk := (task.alone world.disk).2.disk
        log := world.log ++ (task.alone world.disk).2.log }) := by
  induction task generalizing tools world with
  | done value => simp [alone, inWorld, Task.run, World.onDisk]
  | call request next ih =>
      cases request with
      | file call =>
          rw [inWorld_file, ih _ (plain.2 _) tools]
          rfl
      | note record =>
          have fresh : alone (.call (.note record) next) world.disk =
              inWorld (next ()) idleTools
                { World.onDisk world.disk with log := [record] } := rfl
          rw [inWorld_note, ih _ (plain.2 _) tools, fresh, ih _ (plain.2 _) idleTools]
          simp only [World.onDisk, List.append_assoc, List.cons_append, List.nil_append]
      | beginPass platform => exact plain.1.elim
      | install root => exact plain.1.elim
      | bundle config root => exact plain.1.elim

theorem toolCalls_of_isPlain {task : WorldTask α} (plain : task.IsPlain) (tools : Tools)
    (world : World) : task.toolCalls tools world = [] := by
  refine List.filter_eq_nil_iff.mpr ?_
  intro call member
  have kind := Task.calls_within (World.answer tools) plain world call member
  exact Bool.eq_false_iff.mp (Call.isTool_of_isPlain kind)

end WorldTask

theorem DiskTask.inTask_isPlain {α : Type} (task : DiskTask α) :
    WorldTask.IsPlain task.inTask := by
  induction task with
  | done value => trivial
  | call request next ih => exact ⟨trivial, fun reply => ih reply⟩

theorem DiskTask.alone_inTask {α : Type} (task : DiskTask α) (disk : Disk) :
    WorldTask.alone task.inTask disk =
      ((task.onDisk disk).1, World.onDisk (task.onDisk disk).2) := by
  induction task generalizing disk with
  | done value => rfl
  | call request next ih => exact ih (request.answer disk).1 (request.answer disk).2

namespace Work

variable {α β : Type}

def IsPlain (work : Work α) : Prop := WorldTask.IsPlain work.run

/-- What plain work comes to on a disk. -/
def onDisk (work : Work α) (disk : Disk) : Except Fault α × Disk :=
  ((WorldTask.alone work.run disk).1, (WorldTask.alone work.run disk).2.disk)

theorem isPlain_pure (value : α) : IsPlain (pure value) := trivial

theorem isPlain_throw (fault : Fault) : IsPlain (throw fault : Work α) := trivial

theorem isPlain_note (level : LogLevel) (message : String) : IsPlain (note level message) :=
  ⟨trivial, fun _ => trivial⟩

theorem isPlain_inWork (work : FileWork α) : IsPlain work.inWork :=
  DiskTask.inTask_isPlain work.run

theorem isPlain_bind {first : Work α} {follow : α → Work β} (begins : IsPlain first)
    (goes : ∀ value, IsPlain (follow value)) : IsPlain (first >>= follow) :=
  Task.within_except_bind begins goes

variable (disk : Disk)

theorem onDisk_pure (value : α) : onDisk (pure value) disk = (.ok value, disk) := rfl

theorem onDisk_pure_ok {value result : α} {left : Disk}
    (ends : onDisk (pure value) disk = (.ok result, left)) : result = value ∧ left = disk := by
  rw [onDisk_pure] at ends
  cases ends
  exact ⟨rfl, rfl⟩

variable {disk} in
theorem ok_of_isOk {work : Work α} (ends : (work.onDisk disk).1.isOk = true) :
    ∃ value left, work.onDisk disk = (.ok value, left) := by
  rcases ended : work.onDisk disk with ⟨_ | value, left⟩
  · rw [ended] at ends
    cases ends
  · exact ⟨value, left, rfl⟩

theorem onDisk_throw (fault : Fault) : onDisk (throw fault : Work α) disk = (.error fault, disk) :=
  rfl

theorem onDisk_note (level : LogLevel) (message : String) :
    onDisk (note level message) disk = (.ok (), disk) := rfl

theorem onDisk_inWork (work : FileWork α) : onDisk work.inWork disk = work.onDisk disk := by
  change ((WorldTask.alone (DiskTask.inTask work.run) disk).1,
    (WorldTask.alone (DiskTask.inTask work.run) disk).2.disk) = _
  rw [DiskTask.alone_inTask]
  rfl

theorem onDisk_bind {first : Work α} {follow : α → Work β}
    (goes : ∀ value, IsPlain (follow value)) :
    onDisk (first >>= follow) disk =
      match onDisk first disk with
      | (.ok value, middle) => onDisk (follow value) middle
      | (.error fault, middle) => (.error fault, middle) := by
  have whole := Task.run_except_bind (World.answer WorldTask.idleTools) first follow
    (World.onDisk disk)
  unfold onDisk WorldTask.alone WorldTask.inWorld
  rw [whole]
  rcases Task.run (World.answer WorldTask.idleTools) first.run (World.onDisk disk)
    with ⟨fault | value, middle⟩
  · rfl
  · change ((WorldTask.inWorld (follow value).run WorldTask.idleTools middle).1,
      (WorldTask.inWorld (follow value).run WorldTask.idleTools middle).2.disk) = _
    rw [WorldTask.inWorld_of_isPlain (goes value)]
    rfl

theorem onDisk_bind_error {first : Work α} {follow : α → Work β}
    (goes : ∀ value, IsPlain (follow value)) {fault : Fault}
    (stops : (onDisk first disk).1 = .error fault) :
    (onDisk (first >>= follow) disk).1 = .error fault := by
  rw [onDisk_bind disk goes]
  rcases ended : onDisk first disk with ⟨other | value, middle⟩
  · rw [ended] at stops
    cases stops
    rfl
  · rw [ended] at stops
    cases stops

theorem onDisk_bind_ok_iff {first : Work α} {follow : α → Work β}
    (goes : ∀ value, IsPlain (follow value)) {left : Disk} {result : β} :
    onDisk (first >>= follow) disk = (.ok result, left) ↔
      ∃ value middle, onDisk first disk = (.ok value, middle) ∧
        onDisk (follow value) middle = (.ok result, left) := by
  rw [onDisk_bind disk goes]
  rcases onDisk first disk with ⟨fault | value, middle⟩
  · simp
  · constructor
    · intro ends
      exact ⟨value, middle, rfl, ends⟩
    · rintro ⟨_, _, same, ends⟩
      cases same
      exact ends

end Work

end PlatformBundle
