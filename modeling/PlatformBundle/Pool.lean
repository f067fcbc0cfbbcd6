import PlatformBundle.Batch
/-!
Several batches at once. The tasks of a pool share one world, and a schedule says whose call is
answered next. The tasks end in any order, and what each comes to is put into the slot of its index.
`processAll` lets each batch run to its end before the next one begins.
-/

namespace PlatformBundle

structure Pool (α : Type) where
  tasks : List (WorldTask α)
  world : World

namespace Pool

variable {α : Type}

/-- Answers the next call of one task; a task that is done, or is not there, does nothing. -/
def advance (tools : Tools) (index : Nat) (pool : Pool α) : Pool α :=
  match pool.tasks[index]? with
  | some (.call request next) =>
      let (reply, world) := pool.world.answer tools request
      ⟨pool.tasks.set index (next reply), world⟩
  | _ => pool

def follow (tools : Tools) (schedule : List Nat) (pool : Pool α) : Pool α :=
  schedule.foldl (fun pool index => pool.advance tools index) pool

def resultAt (pool : Pool α) (index : Nat) : Option α :=
  match pool.tasks[index]? with
  | some (.done value) => some value
  | _ => none

def results (pool : Pool α) : Option (List α) :=
  (List.range pool.tasks.length).mapM pool.resultAt

/-- The ends of the tasks in the order in which they come. A task that is not done has been lost,
for some reason. -/
def endings (reason : String) (order : List Nat) (pool : Pool α) :
    List (Except String (Nat × α)) :=
  order.map (fun index => match pool.resultAt index with
    | some value => .ok (index, value)
    | none => .error reason)

/-- Puts each result into the slot of its task, and notes every task that was lost. -/
def collect : List (Except String (Nat × α)) → List (Option α) → List (Option α) × List LogRecord
  | [], slots => (slots, [])
  | .ok (index, value) :: rest, slots => collect rest (slots.set index (some value))
  | .error reason :: rest, slots =>
      let (filled, records) := collect rest slots
      (filled, ⟨.error, "Platform batch task failed: " ++ reason⟩ :: records)

end Pool

def runEach {α : Type} (tools : Tools) : List (WorldTask α) → World → List α × World
  | [], world => ([], world)
  | task :: rest, world =>
      let (value, world) := task.inWorld tools world
      let (values, world) := runEach tools rest world
      (value :: values, world)

/-- The error of a batch among others: its own, or that its task was lost. -/
inductive BatchError where
  | failed (error : BuildError)
  | lost
  deriving DecidableEq

def BatchError.message : BatchError → String
  | .failed error => error.message
  | .lost => "platform batch task panicked or was cancelled"

namespace Batch

def ofSlot : Option (Except BuildError (List Artifact)) → Except BatchError (List Artifact)
  | some result => result.mapError .failed
  | none => .error .lost

/-- Waits for all tasks of a pool, and gives what they come to in the order of the batches. -/
def joined (reason : String) (order : List Nat) (pool : Pool (Except BuildError (List Artifact))) :
    List (Except BatchError (List Artifact)) × List LogRecord :=
  let (slots, records) :=
    Pool.collect (pool.endings reason order) (List.replicate pool.tasks.length none)
  (slots.map ofSlot, records)

def tasksOf (settings : Settings) (registry : Registry) (batches : List (List InputFile)) :
    List (WorldTask (Except BuildError (List Artifact))) :=
  batches.map (process settings registry)

def processAll (settings : Settings) (registry : Registry) (tools : Tools)
    (batches : List (List InputFile)) (world : World) :
    List (Except BuildError (List Artifact)) × World :=
  runEach tools (tasksOf settings registry batches) world

end Batch

end PlatformBundle
