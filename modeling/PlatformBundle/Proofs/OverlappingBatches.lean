import PlatformBundle.Proofs.ParallelBatches
import PlatformBundle.Proofs.PlatformRoots
/-!
Batches that are at work at the same time. Nothing keeps a batch from beginning while another is at
work; they are kept apart by their staging roots alone. So no two batches are ever at work on one
root exactly when no two of them are of one platform.
-/

namespace PlatformBundle

def Task.IsCall {Call : Type} {Reply : Call → Type} {α : Type} (task : Task Reply α) : Prop :=
  ∃ request next, task = .call request next

theorem Task.IsCall.bind {Call : Type} {Reply : Call → Type} {α β : Type} {task : Task Reply α}
    (more : task.IsCall) (follow : α → Task Reply β) : (task.bind follow).IsCall := by
  obtain ⟨request, next, rfl⟩ := more
  exact ⟨request, _, rfl⟩

namespace Pool

variable {α : Type} {tools : Tools} {pool : Pool α} {index mover : Nat}

def callAt (pool : Pool α) (index : Nat) : Option Call :=
  match pool.tasks[index]? with
  | some (.call request _) => some request
  | _ => none

/-- The calls of one task that are answered when a schedule is followed. -/
def answered (tools : Tools) (index : Nat) : List Nat → Pool α → List Call
  | [], _ => []
  | mover :: rest, pool =>
      (if mover = index then (pool.callAt index).toList else []) ++
        answered tools index rest (pool.advance tools mover)

theorem answered_append (first second : List Nat) :
    pool.answered tools index (first ++ second) =
      pool.answered tools index first ++
        (pool.follow tools first).answered tools index second := by
  induction first generalizing pool with
  | nil => rfl
  | cons mover rest ih =>
      rw [List.cons_append, answered, answered, ih, List.append_assoc]
      rfl

theorem advance_other (differ : mover ≠ index) :
    (pool.advance tools mover).tasks[index]? = pool.tasks[index]? := by
  rw [advance]
  split
  · exact List.getElem?_set_ne differ
  · rfl

theorem callAt_call {request : Call} {next : request.Reply → WorldTask α}
    (here : pool.tasks[index]? = some (.call request next)) : pool.callAt index = some request := by
  rw [callAt, here]

theorem callAt_idle (idle : ∀ request next, pool.tasks[index]? ≠ some (.call request next)) :
    pool.callAt index = none := by
  rw [callAt]
  split
  · rename_i request next here
    exact absurd here (idle request next)
  · rfl

theorem answered_within {kind : Call → Prop}
    (within : ∀ task, pool.tasks[index]? = some task → task.Within kind) (schedule : List Nat) :
    ∀ call ∈ pool.answered tools index schedule, kind call := by
  induction schedule generalizing pool with
  | nil => simp [answered]
  | cons mover rest ih =>
      intro call listed
      by_cases own : mover = index
      · subst own
        by_cases more : ∃ request next, pool.tasks[mover]? = some (.call request next)
        · obtain ⟨request, next, here⟩ := more
          obtain ⟨inside, -⟩ := List.getElem?_eq_some_iff.mp here
          obtain ⟨now, later⟩ := within _ here
          rw [answered, if_pos rfl, callAt_call here] at listed
          rcases List.mem_append.mp listed with first | others
          · rwa [List.mem_singleton.mp first]
          · refine ih ?_ call others
            intro task there
            rw [advance_call here, List.getElem?_set_self inside] at there
            rw [← Option.some.inj there]
            exact later _
        · have idle : ∀ request next, pool.tasks[mover]? ≠ some (.call request next) :=
            fun request next here => more ⟨request, next, here⟩
          rw [answered, if_pos rfl, advance_idle idle, callAt_idle idle] at listed
          exact ih within call listed
      · rw [answered, if_neg own, List.nil_append] at listed
        exact ih (by rwa [advance_other own]) call listed

theorem follow_others {schedule : List Nat} (others : ∀ mover ∈ schedule, mover ≠ index) :
    (pool.follow tools schedule).tasks[index]? = pool.tasks[index]? := by
  induction schedule generalizing pool with
  | nil => rfl
  | cons mover rest ih =>
      have onward : ((pool.advance tools mover).follow tools rest).tasks[index]? =
          (pool.advance tools mover).tasks[index]? :=
        ih (fun other listed => others other (List.mem_cons_of_mem _ listed))
      exact onward.trans (advance_other (others mover List.mem_cons_self))

end Pool

/-- A task that begins a pass of a platform after some notes, and does not end with that. -/
inductive WorldTask.Embarks {α : Type} (platform : Platform) : WorldTask α → Prop where
  | note {record : LogRecord} {next : Unit → WorldTask α} (rest : Embarks platform (next ())) :
      Embarks platform (.call (.note record) next)
  | begin {next : Bool → WorldTask α}
      (rest : ∀ first, (next first).IsCall) :
      Embarks platform (.call (.beginPass platform) next)

theorem WorldTask.Embarks.bind {α β : Type} {platform : Platform} {task : WorldTask α}
    (embarks : task.Embarks platform) (follow : α → WorldTask β) :
    Embarks platform (Task.bind task follow) := by
  induction embarks with
  | note rest ih => exact .note ih
  | begin rest => exact .begin (fun first => (rest first).bind follow)

theorem Pool.follow_embarked {α : Type} (tools : Tools) {pool : Pool α} {index : Nat}
    {platform : Platform} {task : WorldTask α} (embarks : task.Embarks platform)
    (here : pool.tasks[index]? = some task) :
    ∃ schedule, (∀ mover ∈ schedule, mover = index) ∧
      Call.beginPass platform ∈ pool.answered tools index schedule ∧
      (pool.follow tools schedule).resultAt index = none := by
  induction embarks generalizing pool with
  | @note record next rest ih =>
      obtain ⟨inside, -⟩ := List.getElem?_eq_some_iff.mp here
      have onward : (pool.advance tools index).tasks[index]? = some (next ()) := by
        rw [advance_call here]
        exact List.getElem?_set_self inside
      obtain ⟨schedule, alone, begun, busy⟩ := ih onward
      refine ⟨index :: schedule, ?_, ?_, busy⟩
      · simpa using alone
      · rw [answered]
        exact List.mem_append_right _ begun
  | @begin next rest =>
      obtain ⟨inside, -⟩ := List.getElem?_eq_some_iff.mp here
      refine ⟨[index], by simp, ?_, ?_⟩
      · rw [answered, if_pos rfl, callAt_call here]
        exact List.mem_cons_self
      · obtain ⟨request, more, goes⟩ := rest (pool.world.answer tools (.beginPass platform)).1
        have moved : (pool.advance tools index).tasks[index]? = some (.call request more) := by
          rw [advance_call here, ← goes]
          exact List.getElem?_set_self inside
        change (pool.advance tools index).resultAt index = none
        rw [resultAt, moved]

namespace Batch

variable {settings : Settings} {registry : Registry} {tools : Tools}
  {batches : List (List InputFile)} {world : World} {platform : Platform} {files : List InputFile}

def rootOf (settings : Settings) : Call → Option Path
  | .beginPass platform => some (settings.stagingRoot platform)
  | .install root => some root
  | .bundle _ root => some root
  | .file _ => none
  | .note _ => none

def OnRoot (settings : Settings) (platform : Platform) (call : Call) : Prop :=
  ∀ root, rootOf settings call = some root → root = settings.stagingRoot platform

theorem onRoot_plain {call : Call} (plain : call.IsPlain) : OnRoot settings platform call := by
  intro root named
  cases call with
  | file call => cases named
  | note record => cases named
  | beginPass platform => cases plain
  | install root => cases plain
  | bundle config root => cases plain

theorem steps_onRoot {α : Type} {work : Work α} (plain : work.IsPlain) :
    Task.Steps (.anyReply (OnRoot settings platform)) work (fun _ => True) :=
  Task.brings_of_within plain (fun _ => onRoot_plain) (fun _ _ _ => trivial)

theorem onRoot_processFor : (processFor settings registry platform files).run.Within
    (OnRoot settings platform) := by
  have own {call : Call} (named : rootOf settings call = some (settings.stagingRoot platform)) :
      OnRoot settings platform call := by
    intro root same
    rw [named] at same
    exact (Option.some.inj same).symm
  have steps : Task.Steps (.anyReply (OnRoot settings platform))
      (processFor settings registry platform files) (fun _ => True) :=
    steps_of_staging (fun _ => onRoot_plain trivial) (fun _ _ => onRoot_plain trivial) (own rfl)
      (fun _ _ => steps_onRoot (Staging.isPlain_prepare _ _))
      (fun _ => steps_onRoot (Staging.isPlain_stage _ _ _ _ _)) (own rfl) (fun _ => own rfl)
  exact Task.brings_within steps

theorem isCall_prepare (root : Path) (reset : Bool) :
    (Staging.prepare root reset).run.IsCall := by
  cases reset with
  | true => exact ⟨_, _, rfl⟩
  | false => exact ⟨_, _, rfl⟩

theorem embarks_stageAll (files : List Classified) :
    (stageAll settings registry platform files).run.Embarks platform := by
  refine .begin (fun first => ?_)
  have prepares : (inStage .staging platform (Staging.prepare (settings.stagingRoot platform)
      (first && settings.resetOnFirstRun))).run.IsCall := (isCall_prepare _ _).bind _
  exact prepares.bind _

theorem embarks_processFor :
    (processFor settings registry platform files).run.Embarks platform := by
  refine .note ?_
  have checked : ∀ follow : Unit → BatchWork (List Artifact),
      (follow ()).run.Embarks platform →
      (checkOwnPackage settings registry >>= follow).run.Embarks platform := by
    intro follow goes
    rcases checkOwnPackage_cases settings registry with silent | ⟨record, noted⟩
    · rw [silent]
      exact goes
    · rw [noted]
      exact .note goes
  exact checked _ ((embarks_stageAll _).bind _)

/-- A batch is at work on a staging root from the beginning of its pass there until it is done. -/
def AtWork (settings : Settings) (tools : Tools)
    (pool : Pool (Except BuildError (List Artifact))) (schedule : List Nat) (index : Nat)
    (root : Path) : Prop :=
  (∃ call ∈ pool.answered tools index schedule, rootOf settings call = some root) ∧
    (pool.follow tools schedule).resultAt index = none

/-- No two batches are at work on one staging root when the schedule has been followed. -/
def Exclusive (settings : Settings) (registry : Registry) (tools : Tools)
    (batches : List (List InputFile)) (world : World) (schedule : List Nat) : Prop :=
  ∀ first second root,
    AtWork settings tools ⟨tasksOf settings registry batches, world⟩ schedule first root →
    AtWork settings tools ⟨tasksOf settings registry batches, world⟩ schedule second root →
      first = second

theorem AtWork.owned {schedule : List Nat} {index : Nat} {root : Path}
    (works : AtWork settings tools ⟨tasksOf settings registry batches, world⟩ schedule index root) :
    ∃ platform, ownerOf batches index = some platform ∧ root = settings.stagingRoot platform := by
  obtain ⟨⟨call, made, named⟩, -⟩ := works
  have within : ∀ task, (tasksOf settings registry batches)[index]? = some task →
      task.Within (fun call => ∀ root, rootOf settings call = some root →
        ∃ platform, ownerOf batches index = some platform ∧
          root = settings.stagingRoot platform) := by
    intro task here
    rw [tasksOf, List.getElem?_map] at here
    obtain ⟨files, there, rfl⟩ := Option.map_eq_some_iff.mp here
    rw [process]
    cases common : commonPlatform files with
    | error error => trivial
    | ok platform =>
        refine onRoot_processFor.mono (fun call onRoot root named => ?_)
        exact ⟨platform, ownerOf_eq_some.mpr ⟨files, there, common⟩, onRoot root named⟩
  exact Pool.answered_within within schedule call made root named

theorem distinct_of_exclusive
    (exclusive : ∀ schedule, Exclusive settings registry tools batches world schedule) :
    Distinct batches := by
  refine List.pairwise_iff_getElem.mpr ?_
  intro first second firstInside secondInside before platform firstCommon secondCommon
  have begins (index : Nat) (inside : index < batches.length)
      (common : commonPlatform batches[index] = .ok platform) :
      ∃ task, (Pool.mk (tasksOf settings registry batches) world).tasks[index]? = some task ∧
        task.Embarks platform := by
    refine ⟨process settings registry batches[index], ?_, ?_⟩
    · rw [tasksOf, List.getElem?_map, List.getElem?_eq_getElem inside]
      rfl
    · rw [process, common]
      exact embarks_processFor
  obtain ⟨task, here, embarks⟩ := begins first firstInside firstCommon
  obtain ⟨other, there, otherEmbarks⟩ := begins second secondInside secondCommon
  -- The first batch begins, and then the second does while the first waits.
  obtain ⟨turns, own, begun, busy⟩ := Pool.follow_embarked tools embarks here
  have waiting : ((Pool.mk (tasksOf settings registry batches) world).follow tools
      turns).tasks[second]? = some other := by
    rw [Pool.follow_others (fun mover listed => by rw [own mover listed]; omega)]
    exact there
  obtain ⟨more, others, otherBegun, otherBusy⟩ := Pool.follow_embarked tools otherEmbarks waiting
  have named : rootOf settings (.beginPass platform) = some (settings.stagingRoot platform) := rfl
  have same := exclusive (turns ++ more) first second (settings.stagingRoot platform)
    ⟨⟨_, ?_, named⟩, ?_⟩ ⟨⟨_, ?_, named⟩, ?_⟩
  · omega
  · rw [Pool.answered_append]
    exact List.mem_append_left _ begun
  · rw [Pool.follow_append, Pool.resultAt, Pool.follow_others (fun mover listed => by
      rw [others mover listed]; omega)]
    exact busy
  · rw [Pool.answered_append]
    exact List.mem_append_right _ otherBegun
  · rw [Pool.follow_append]
    exact otherBusy

/-- No two batches are ever at work on one staging root, whatever the order of their calls, exactly
when no two of them are of one platform. -/
theorem exclusive_iff_distinct :
    (∀ schedule, Exclusive settings registry tools batches world schedule) ↔ Distinct batches := by
  refine ⟨distinct_of_exclusive, ?_⟩
  intro distinct schedule first second root left right
  obtain ⟨platform, firstOwned, rfl⟩ := left.owned
  obtain ⟨other, secondOwned, sameRoot⟩ := right.owned
  have same := (settings.stagingRoot_eq_iff platform other).mp sameRoot
  rw [← same] at secondOwned
  exact distinct.owner_unique first second platform firstOwned secondOwned

section Samples

open Rehearsal

def twins : Pool (Except BuildError (List Artifact)) :=
  ⟨tasksOf plainSettings .empty [[appModule], [appModule]], emptyWorld⟩

/-- The first batch comes to its installation, and then the second clears its root. -/
def overlap : List Nat := List.replicate 15 0 ++ List.replicate 5 1

-- The first batch has staged its sources, and fails because they are gone when it goes on.
theorem twin_batch_erases_sources :
    ¬ Exclusive plainSettings .empty meetingTools [[appModule], [appModule]] emptyWorld overlap ∧
    (twins.follow meetingTools overlap).callAt 0 =
      some (.install (plainSettings.stagingRoot browser)) ∧
    (twins.follow meetingTools overlap).world.disk.readText
      (plainSettings.stagingRoot browser / packagesDir / "__app__/module.js") =
        .error .notFound ∧
    ∃ error, (twins.follow meetingTools (overlap ++ List.replicate 4 0)).resultAt 0 =
      some (.error error) := by
  refine ⟨?_, by decide +kernel, by decide +kernel, ?_⟩
  · intro exclusive
    have begun (index : Nat) (listed : index = 0 ∨ index = 1) :
        Call.beginPass browser ∈ twins.answered meetingTools index overlap := by
      rcases listed with rfl | rfl
      · decide +kernel
      · decide +kernel
    have busy (index : Nat) (listed : index = 0 ∨ index = 1) :
        (twins.follow meetingTools overlap).resultAt index = none := by
      rw [← Option.isNone_iff_eq_none]
      rcases listed with rfl | rfl
      · decide +kernel
      · decide +kernel
    have same := exclusive 0 1 (plainSettings.stagingRoot browser)
      ⟨⟨_, begun 0 (Or.inl rfl), rfl⟩, busy 0 (Or.inl rfl)⟩
      ⟨⟨_, begun 1 (Or.inr rfl), rfl⟩, busy 1 (Or.inr rfl)⟩
    cases same
  · have fails : ((twins.follow meetingTools (overlap ++ List.replicate 4 0)).resultAt 0).any
        (fun result => !result.isOk) = true := by
      decide +kernel
    obtain ⟨error | artifacts, ended, failed⟩ := (Option.any_eq_true _ _).mp fails
    · exact ⟨error, ended⟩
    · cases failed

end Samples

end Batch

end PlatformBundle
