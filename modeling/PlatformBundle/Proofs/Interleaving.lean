import Mathlib.Data.List.Induction
import PlatformBundle.Pool
import PlatformBundle.Proofs.Sequencing
/-!
Tasks of a pool that do not get in each other's way. Each task of such a pool stands, after every
schedule, where it stands when it runs alone from the world that the pool began in: it is done once
the schedule has given it as many turns as it makes calls, and its result is the one that it has
alone.
-/

namespace PlatformBundle

namespace Pool

variable {α : Type} {tools : Tools} {pool : Pool α} {index : Nat}

theorem advance_call {request : Call} {next : request.Reply → WorldTask α}
    (here : pool.tasks[index]? = some (.call request next)) : pool.advance tools index =
      ⟨pool.tasks.set index (next (pool.world.answer tools request).1),
        (pool.world.answer tools request).2⟩ := by
  rw [advance, here]

theorem advance_idle
    (idle : ∀ request next, pool.tasks[index]? ≠ some (.call request next)) :
    pool.advance tools index = pool := by
  rw [advance]
  split
  · rename_i request next here
    exact absurd here (idle request next)
  · rfl

theorem length_advance (tools : Tools) (pool : Pool α) (index : Nat) :
    (pool.advance tools index).tasks.length = pool.tasks.length := by
  rw [advance]
  split
  · exact List.length_set
  · rfl

theorem follow_append (first second : List Nat) :
    pool.follow tools (first ++ second) = (pool.follow tools first).follow tools second :=
  List.foldl_append

theorem follow_concat (tools : Tools) (schedule : List Nat) (index : Nat) (pool : Pool α) :
    pool.follow tools (schedule ++ [index]) = (pool.follow tools schedule).advance tools index := by
  rw [follow, follow, List.foldl_append]
  rfl

theorem length_follow (tools : Tools) (schedule : List Nat) (pool : Pool α) :
    (pool.follow tools schedule).tasks.length = pool.tasks.length := by
  induction schedule using List.reverseRecOn with
  | nil => rfl
  | append_singleton schedule index ih => rw [follow_concat, length_advance, ih]

/-- `Rel` holds of a task, the world of its pool and the world of the task run alone. It outlasts
the calls of the task, which have the same replies in both worlds, and the calls of the others. -/
structure Apart (tools : Tools) (Rel : Nat → WorldTask α → World → World → Prop) : Prop where
  own : ∀ {index request next shared alone}, Rel index (.call request next) shared alone →
    (shared.answer tools request).1 = (alone.answer tools request).1 ∧
      Rel index (next (alone.answer tools request).1) (shared.answer tools request).2
        (alone.answer tools request).2
  others : ∀ {index other request next task shared alone theirs}, index ≠ other →
    Rel index (.call request next) shared alone → Rel other task shared theirs →
      Rel other task (shared.answer tools request).2 theirs

/-- A task of a pool stands where it stands when it is run alone, and has had some turns. -/
def Keeps (tools : Tools) (Rel : Nat → WorldTask α → World → World → Prop) (first : WorldTask α)
    (start : World) (pool : Pool α) (index turns : Nat) : Prop :=
  ∃ task alone, pool.tasks[index]? = some task ∧ Rel index task pool.world alone ∧
    task.run (World.answer tools) alone = first.run (World.answer tools) start ∧
    (task.calls (World.answer tools) alone).length =
      (first.calls (World.answer tools) start).length - turns

section Running

variable {Rel : Nat → WorldTask α → World → World → Prop} {first : WorldTask α} {start : World}
  {turns : Nat}

theorem Keeps.turn (apart : Apart tools Rel)
    (keeps : Keeps tools Rel first start pool index turns) :
    Keeps tools Rel first start (pool.advance tools index) index (turns + 1) := by
  obtain ⟨task, alone, here, related, runs, left⟩ := keeps
  cases task with
  | done value =>
      rw [advance_idle (by simp [here])]
      refine ⟨_, alone, here, related, runs, ?_⟩
      rw [Task.calls, List.length_nil] at left ⊢
      omega
  | call request next =>
      obtain ⟨same, onward⟩ := apart.own related
      obtain ⟨inside, -⟩ := List.getElem?_eq_some_iff.mp here
      rw [advance_call here, same]
      refine ⟨_, _, List.getElem?_set_self inside, onward, runs, ?_⟩
      rw [Task.calls, List.length_cons] at left
      omega

theorem Keeps.turn_other {mover : Nat} {other : WorldTask α} {moved : Nat}
    (apart : Apart tools Rel) (differ : mover ≠ index)
    (moves : Keeps tools Rel other start pool mover moved)
    (keeps : Keeps tools Rel first start pool index turns) :
    Keeps tools Rel first start (pool.advance tools mover) index turns := by
  obtain ⟨task, alone, here, related, runs, left⟩ := keeps
  obtain ⟨moving, theirs, there, relatedThere, -, -⟩ := moves
  cases moving with
  | done value =>
      rw [advance_idle (by simp [there])]
      exact ⟨_, alone, here, related, runs, left⟩
  | call request next =>
      rw [advance_call there]
      refine ⟨_, alone, ?_, apart.others differ relatedThere related, runs, left⟩
      rw [List.getElem?_set_ne differ, here]

theorem keeps_follow (apart : Apart tools Rel) {tasks : List (WorldTask α)}
    (starts : ∀ index task, tasks[index]? = some task → Rel index task start start)
    (schedule : List Nat) (here : tasks[index]? = some first) :
    Keeps tools Rel first start ((Pool.mk tasks start).follow tools schedule) index
      (schedule.count index) := by
  induction schedule using List.reverseRecOn generalizing index first with
  | nil => exact ⟨first, start, here, starts index first here, rfl, rfl⟩
  | append_singleton schedule mover ih =>
      rw [follow_concat, List.count_append, List.count_singleton]
      by_cases own : mover = index
      · subst own
        rw [beq_self_eq_true, if_pos rfl]
        exact (ih here).turn apart
      · rw [beq_false_of_ne own, if_neg Bool.false_ne_true, Nat.add_zero]
        cases there : tasks[mover]? with
        | none =>
            have outside : tasks.length ≤ mover := List.getElem?_eq_none_iff.mp there
            rw [advance_idle]
            · exact ih here
            · intro request next
              rw [List.getElem?_eq_none_iff.mpr]
              · simp
              · rwa [length_follow]
        | some task => exact (ih there).turn_other apart own (ih here)

theorem Keeps.resultAt (keeps : Keeps tools Rel first start pool index turns) :
    pool.resultAt index =
      if (first.calls (World.answer tools) start).length ≤ turns
      then some (first.inWorld tools start).1 else none := by
  obtain ⟨task, alone, here, -, runs, left⟩ := keeps
  rw [Pool.resultAt, here]
  cases task with
  | done value =>
      rw [Task.calls, List.length_nil] at left
      rw [if_pos (by omega), WorldTask.inWorld, ← runs]
      rfl
  | call request next =>
      rw [Task.calls, List.length_cons] at left
      rw [if_neg (by omega)]

theorem Keeps.related (keeps : Keeps tools Rel first start pool index turns)
    (enough : (first.calls (World.answer tools) start).length ≤ turns) :
    ∃ value, Rel index (.done value) pool.world (first.inWorld tools start).2 := by
  obtain ⟨task, alone, here, related, runs, left⟩ := keeps
  cases task with
  | done value =>
      rw [WorldTask.inWorld, ← runs]
      exact ⟨value, related⟩
  | call request next =>
      rw [Task.calls, List.length_cons] at left
      omega

end Running

theorem follow_alone {task : WorldTask α} (here : pool.tasks[index]? = some task) :
    pool.follow tools
        (List.replicate (task.calls (World.answer tools) pool.world).length index) =
      ⟨pool.tasks.set index (.done (task.inWorld tools pool.world).1),
        (task.inWorld tools pool.world).2⟩ := by
  induction task generalizing pool with
  | done value =>
      obtain ⟨inside, same⟩ := List.getElem?_eq_some_iff.mp here
      have unchanged : pool.tasks.set index (.done value) = pool.tasks := by
        rw [← same, List.set_getElem_self]
      rw [Task.calls, List.length_nil]
      change pool = ⟨pool.tasks.set index (.done value), pool.world⟩
      rw [unchanged]
  | call request next ih =>
      obtain ⟨inside, -⟩ := List.getElem?_eq_some_iff.mp here
      have moved : pool.advance tools index = _ := advance_call here
      have onward : (pool.advance tools index).tasks[index]? =
          some (next (pool.world.answer tools request).1) := by
        rw [moved]
        exact List.getElem?_set_self inside
      have rest := ih (pool.world.answer tools request).1 onward
      rw [moved] at rest
      rw [Task.calls, List.length_cons, List.replicate_succ, follow, List.foldl_cons, moved]
      rw [follow] at rest
      rw [rest, List.set_set]
      rfl

theorem results_eq_some {values : List α} (length : pool.tasks.length = values.length)
    (done : ∀ index value, values[index]? = some value → pool.resultAt index = some value) :
    pool.results = some values := by
  rw [results, length]
  clear length
  induction values using List.reverseRecOn with
  | nil => rfl
  | append_singleton front last ih =>
      have before : (List.range front.length).mapM pool.resultAt = some front := by
        refine ih (fun index value found => done index value ?_)
        obtain ⟨inside, -⟩ := List.getElem?_eq_some_iff.mp found
        rw [List.getElem?_append_left inside, found]
      have here : pool.resultAt front.length = some last := done _ _ (by simp)
      simp [List.range_succ, List.mapM_append, before, here]

section Joining

variable {reason : String} {order : List Nat} {slots : List (Option α)}

/-- Each slot holds what its task has come to, in whichever order the tasks have ended. -/
theorem getElem?_collect (slot : Nat) :
    (collect (pool.endings reason order) slots).1[slot]? =
      if slot ∈ order ∧ pool.resultAt slot ≠ none then
        slots[slot]?.map (fun _ => pool.resultAt slot)
      else slots[slot]? := by
  induction order generalizing slots with
  | nil => simp [endings, collect]
  | cons index rest ih =>
      rw [endings, List.map_cons, ← endings]
      cases ended : pool.resultAt index with
      | none =>
          have other : slot = index → pool.resultAt slot = none := fun same => same ▸ ended
          rw [collect, ih]
          by_cases own : slot = index
          · simp [other own]
          · simp [own]
      | some value =>
          rw [collect, ih, List.getElem?_set]
          by_cases own : index = slot
          · subst own
            by_cases inside : index < slots.length
            · simp [ended, inside]
            · simp [inside]
          · simp [own, Ne.symm own]

theorem collect_all (every : ∀ index < pool.tasks.length, index ∈ order) :
    (collect (pool.endings reason order) (List.replicate pool.tasks.length none)).1 =
      (List.range pool.tasks.length).map pool.resultAt := by
  refine List.ext_getElem? (fun slot => ?_)
  rw [getElem?_collect]
  by_cases inside : slot < pool.tasks.length
  · by_cases lost : pool.resultAt slot = none
    · simp [inside, lost]
    · simp [inside, lost, every slot inside]
  · simp [inside]

theorem collect_records (done : ∀ index ∈ order, pool.resultAt index ≠ none) :
    (collect (pool.endings reason order) slots).2 = [] := by
  induction order generalizing slots with
  | nil => rfl
  | cons index rest ih =>
      obtain ⟨value, ended⟩ := Option.ne_none_iff_exists'.mp (done index List.mem_cons_self)
      rw [endings, List.map_cons, ← endings, ended, collect]
      exact ih (fun other later => done other (List.mem_cons_of_mem _ later))

theorem collect_values {values : List α} (length : pool.tasks.length = values.length)
    (done : ∀ index value, values[index]? = some value → pool.resultAt index = some value)
    (every : order.Perm (List.range pool.tasks.length)) :
    collect (pool.endings reason order) (List.replicate pool.tasks.length none) =
      (values.map some, []) := by
  have listed (index : Nat) : index ∈ order ↔ index < values.length := by
    rw [every.mem_iff, List.mem_range, length]
  refine Prod.ext ?_ (collect_records (fun index ended => ?_))
  · rw [collect_all (fun index inside => (listed index).mpr (length ▸ inside)), length]
    refine List.ext_getElem? (fun slot => ?_)
    by_cases inside : slot < values.length
    · simp [inside, done slot _ (List.getElem?_eq_getElem inside)]
    · simp [inside]
  · rw [done index _ (List.getElem?_eq_getElem ((listed index).mp ended))]
    simp

end Joining

theorem length_runEach (tools : Tools) (tasks : List (WorldTask α)) (world : World) :
    (runEach tools tasks world).1.length = tasks.length := by
  induction tasks generalizing world with
  | nil => rfl
  | cons task rest ih => rw [runEach, List.length_cons, List.length_cons, ih]

/-- Tasks that are run one after the other are a pool with one of its schedules. -/
theorem follow_each (tools : Tools) (tasks : List (WorldTask α)) (before : List α) (world : World) :
    ∃ schedule, (Pool.mk (before.map .done ++ tasks) world).follow tools schedule =
      ⟨(before ++ (runEach tools tasks world).1).map .done, (runEach tools tasks world).2⟩ := by
  induction tasks generalizing before world with
  | nil => exact ⟨[], by simp [runEach, follow]⟩
  | cons task rest ih =>
      have here : (Pool.mk (before.map .done ++ task :: rest) world).tasks[before.length]? =
          some task := by
        simp
      obtain ⟨schedule, onward⟩ :=
        ih (before ++ [(task.inWorld tools world).1]) (task.inWorld tools world).2
      have moved : (before.map Task.done ++ task :: rest).set before.length
          (.done (task.inWorld tools world).1) =
            (before ++ [(task.inWorld tools world).1]).map .done ++ rest := by
        simp
      refine ⟨List.replicate (task.calls (World.answer tools) world).length before.length ++
        schedule, ?_⟩
      rw [follow_append, follow_alone here, moved, onward, runEach]
      simp

end Pool

namespace Batch

theorem joined_values {pool : Pool (Except BuildError (List Artifact))} {order : List Nat}
    {values : List (Except BuildError (List Artifact))}
    (length : pool.tasks.length = values.length)
    (done : ∀ index value, values[index]? = some value → pool.resultAt index = some value)
    (every : order.Perm (List.range pool.tasks.length)) (reason : String) :
    joined reason order pool = (values.map (Except.mapError .failed), []) := by
  rw [joined, Pool.collect_values length done every]
  simp [ofSlot]

/-- Batches that are processed one after the other are a pool with one of its schedules, and what
they come to is what is joined, whichever of their tasks is waited for first. -/
theorem processAll_joined (settings : Settings) (registry : Registry) (tools : Tools)
    (batches : List (List InputFile)) (world : World) :
    ∃ schedule,
      let pool := (Pool.mk (tasksOf settings registry batches) world).follow tools schedule
      let ended := processAll settings registry tools batches world
      pool.world = ended.2 ∧
        ∀ reason order, order.Perm (List.range batches.length) →
          joined reason order pool = (ended.1.map (Except.mapError .failed), []) := by
  obtain ⟨schedule, followed⟩ := Pool.follow_each tools (tasksOf settings registry batches) [] world
  rw [List.map_nil, List.nil_append, List.nil_append] at followed
  refine ⟨schedule, congrArg Pool.world followed, ?_⟩
  intro reason order every
  have length : (runEach tools (tasksOf settings registry batches) world).1.length =
      batches.length := by
    rw [Pool.length_runEach, tasksOf, List.length_map]
  refine joined_values ?_ ?_ ?_ reason
  · rw [followed, List.length_map]
    rfl
  · intro index value found
    have ended : (processAll settings registry tools batches world).1[index]? = some value := found
    rw [processAll] at ended
    rw [followed, Pool.resultAt, List.getElem?_map, ended]
    rfl
  · rwa [followed, List.length_map, length]

end Batch

end PlatformBundle
