import PlatformBundle.Proofs.FirstCalls
import PlatformBundle.Proofs.MissingBase
import PlatformBundle.Proofs.SharedWorlds
/-!
Batches that begin before the staging base is there. The first of them that makes its root makes
the base too, so the world of one batch may be ahead of the world that another knows. A batch does
not notice: as long as its own root cannot be made, it is told the same before the base is there and
after. Where the base cannot be made at all, no batch gets beyond its first calls.
-/

namespace PlatformBundle

open FileTree Disk

section Behind

variable {prior made : Disk} {world ahead other : World}

variable (prior made) in
/-- The base was made in the world that is ahead, and in the other unless its disk is the prior. -/
def Behind (world ahead : World) : Prop :=
  world = ahead ∧ world.disk ≠ prior ∨ world.disk = prior ∧ ahead = { world with disk := made }

theorem Behind.unique (first : Behind prior made world ahead)
    (second : Behind prior made world other) : ahead = other := by
  rcases first with ⟨rfl, later⟩ | ⟨still, rfl⟩ <;> rcases second with ⟨rfl, there⟩ | ⟨here, rfl⟩
  · rfl
  · exact absurd here later
  · exact absurd still there
  · rfl

end Behind

section Begins

variable {settings : Settings} {platform : Platform} {prior made : Disk}

structure GoesAlike (settings : Settings) (platform : Platform) (prior made : Disk) : Prop where
  creates : prior.createDirs (settings.stagingRoot platform) =
      made.createDirs (settings.stagingRoot platform) ∨
    ∃ cause, prior.createDirs (settings.stagingRoot platform) = (.error cause, prior) ∧
      made.createDirs (settings.stagingRoot platform) = (.error cause, made)
  removes : settings.resetOnFirstRun = true →
    ∃ cause, prior.removeTree (settings.stagingRoot platform) = (.error cause, prior) ∧
      made.removeTree (settings.stagingRoot platform) = (.error cause, made)

structure GoesNowhere (settings : Settings) (platform : Platform) (prior made : Disk) : Prop where
  creates : ∃ cause, ∀ either, either = prior ∨ either = made →
    (either.createDirs (settings.stagingRoot platform)).1 = .error cause ∧
      ((either.createDirs (settings.stagingRoot platform)).2 = prior ∨
        (either.createDirs (settings.stagingRoot platform)).2 = made)
  removes : settings.resetOnFirstRun = true → ∃ cause, ∀ either, either = prior ∨ either = made →
    either.removeTree (settings.stagingRoot platform) = (.error cause, either)

variable (settings platform prior made) in
/-- A call is answered as in the world ahead. If the disk is still the prior one afterwards, the
call was one of the first of a batch and has failed. -/
structure Catches (tools : Tools) (call : Call) (world ahead : World) : Prop where
  before : Behind prior made world ahead
  reply : (world.answer tools call).1 = (ahead.answer tools call).1
  after : Behind prior made (world.answer tools call).2 (ahead.answer tools call).2
  still : (world.answer tools call).2.disk = prior → world.disk = prior ∧
    (Batch.opening settings platform).told call (world.answer tools call).1

theorem GoesAlike.answer (alike : GoesAlike settings platform prior made) {tools : Tools}
    {world ahead : World} {call : Call} (behind : Behind prior made world ahead)
    (first : world.disk = prior → (Batch.opening settings platform).asks call)
    (fresh : (ahead.answer tools call).2.disk ≠ prior) :
    Catches settings platform prior made tools call world ahead := by
  suffices outcome : (world.answer tools call).1 = (ahead.answer tools call).1 ∧
      Behind prior made (world.answer tools call).2 (ahead.answer tools call).2 ∧
      ((world.answer tools call).2.disk = prior → world.disk = prior ∧
        (Batch.opening settings platform).told call (world.answer tools call).1) from
    ⟨behind, outcome.1, outcome.2.1, outcome.2.2⟩
  rcases behind with ⟨rfl, later⟩ | ⟨rfl, rfl⟩
  · exact ⟨rfl, Or.inl ⟨rfl, fresh⟩, fun back => absurd back fresh⟩
  · have asked := first rfl
    cases call with
    | note record => exact ⟨rfl, Or.inr ⟨rfl, rfl⟩, fun _ => ⟨rfl, trivial⟩⟩
    | beginPass named => exact ⟨rfl, Or.inr ⟨rfl, rfl⟩, fun _ => ⟨rfl, trivial⟩⟩
    | install root => exact asked.elim
    | bundle config root => exact asked.elim
    | file call =>
        cases call with
        | removeTree path =>
            obtain ⟨resets, rfl⟩ := asked
            obtain ⟨cause, before, after⟩ := alike.removes resets
            simp only [World.answer, DiskCall.answer, before, after]
            exact ⟨trivial, Or.inr ⟨rfl, rfl⟩, fun _ => ⟨trivial, cause, rfl⟩⟩
        | createDirs path =>
            obtain rfl : path = settings.stagingRoot platform := asked
            rcases alike.creates with same | ⟨cause, before, after⟩
            · simp only [World.answer, DiskCall.answer, same] at fresh ⊢
              exact ⟨trivial, Or.inl ⟨rfl, fresh⟩, fun back => absurd back fresh⟩
            · simp only [World.answer, DiskCall.answer, before, after]
              exact ⟨trivial, Or.inr ⟨rfl, rfl⟩, fun _ => ⟨trivial, cause, rfl⟩⟩
        | write path text => exact asked.elim
        | readText path => exact asked.elim
        | list path => exact asked.elim
        | isDirectory path => exact asked.elim
        | isThere path => exact asked.elim
        | filesBelow path => exact asked.elim

theorem GoesNowhere.answer (nowhere : GoesNowhere settings platform prior made) {tools : Tools}
    {shared alone : World} {call : Call}
    (first : (Batch.opening settings platform).asks call)
    (begun : shared.begun.contains platform.tag = alone.begun.contains platform.tag)
    (sharedDisk : shared.disk = prior ∨ shared.disk = made)
    (aloneDisk : alone.disk = prior ∨ alone.disk = made) :
    (shared.answer tools call).1 = (alone.answer tools call).1 ∧
      (Batch.opening settings platform).told call (alone.answer tools call).1 ∧
      ((shared.answer tools call).2.disk = prior ∨ (shared.answer tools call).2.disk = made) ∧
      ((alone.answer tools call).2.disk = prior ∨ (alone.answer tools call).2.disk = made) := by
  cases call with
  | note record => exact ⟨rfl, trivial, sharedDisk, aloneDisk⟩
  | beginPass named =>
      obtain rfl : named = platform := first
      exact ⟨congrArg (!·) begun, trivial, sharedDisk, aloneDisk⟩
  | install root => exact first.elim
  | bundle config root => exact first.elim
  | file call =>
      cases call with
      | removeTree path =>
          obtain ⟨resets, rfl⟩ := first
          obtain ⟨cause, fails⟩ := nowhere.removes resets
          simp only [World.answer, DiskCall.answer, fails _ sharedDisk, fails _ aloneDisk]
          exact ⟨trivial, ⟨cause, rfl⟩, sharedDisk, aloneDisk⟩
      | createDirs path =>
          obtain rfl : path = settings.stagingRoot platform := first
          obtain ⟨cause, fails⟩ := nowhere.creates
          obtain ⟨sharedReply, sharedLeft⟩ := fails _ sharedDisk
          obtain ⟨aloneReply, aloneLeft⟩ := fails _ aloneDisk
          exact ⟨sharedReply.trans aloneReply.symm, ⟨cause, aloneReply⟩, sharedLeft, aloneLeft⟩
      | write path text => exact first.elim
      | readText path => exact first.elim
      | list path => exact first.elim
      | isDirectory path => exact first.elim
      | isThere path => exact first.elim
      | filesBelow path => exact first.elim

theorem opening_begins {call : Call} (first : (Batch.opening settings platform).asks call) :
    ∀ named, call = .beginPass named → named = platform := by
  rintro _ rfl
  exact first

end Begins

section Pools

variable {α : Type} {settings : Settings} {tools : Tools} {prior made : Disk}
  {owner : Nat → Option Platform}

def Opens (settings : Settings) (platform? : Option Platform) (task : WorldTask α) : Prop :=
  ∀ platform, platform? = some platform →
    task.Brings (Batch.opening settings platform) (fun _ => True)

/-- Worlds that are alike once the base is made in both; where it is not, a batch still opens. -/
def Surroundings.SharesLate (around : Surroundings) (settings : Settings) (prior made : Disk)
    (owner : Nat → Option Platform) (index : Nat) (task : WorldTask α)
    (shared alone : World) : Prop :=
  ∃ sharedAhead aloneAhead, Behind prior made shared sharedAhead ∧
    Behind prior made alone aloneAhead ∧ around.Shares owner index task sharedAhead aloneAhead ∧
    (shared.disk = prior ∨ alone.disk = prior → Opens settings (owner index) task)

theorem Opens.onward {platform? : Option Platform} {request : Call}
    {next : request.Reply → WorldTask α} (opens : Opens settings platform? (.call request next))
    {reply : request.Reply} (told : ∀ platform, platform? = some platform →
      (Batch.opening settings platform).told request reply) :
    Opens settings platform? (next reply) :=
  fun platform named => (opens platform named).2 reply (told platform named)

theorem Surroundings.apart_late {around : Surroundings} (confined : around.ToolsConfined tools)
    (distinct : ∀ first second platform, owner first = some platform →
      owner second = some platform → first = second)
    (missing : Blocked prior.tree around.names)
    (alike : ∀ platform ∈ around.site.platforms, GoesAlike settings platform prior made) :
    Pool.Apart (α := α) tools (around.SharesLate settings prior made owner) := by
  have apart : Pool.Apart (α := α) tools (around.Shares owner) := around.apart confined distinct
  have fresh {disk : Disk} (kept : around.Kept disk) : disk ≠ prior := by
    rintro rfl
    exact missing _ kept.leads
  -- What a call does to the two worlds of a task, and to the worlds that are ahead of them.
  have moves {index : Nat} {request : Call} {next : request.Reply → WorldTask α}
      {shared alone sharedAhead aloneAhead : World}
      (sharedBehind : Behind prior made shared sharedAhead)
      (aloneBehind : Behind prior made alone aloneAhead)
      (related : around.Shares owner index (.call request next) sharedAhead aloneAhead)
      (opens : shared.disk = prior ∨ alone.disk = prior →
        Opens settings (owner index) (.call request next)) :
      ∃ platform, owner index = some platform ∧
        Catches settings platform prior made tools request shared sharedAhead ∧
        Catches settings platform prior made tools request alone aloneAhead := by
    obtain ⟨platform, owned⟩ := related.owned
    have alikeAfter := (apart.own related).2.alike owned
    have goes := alike platform (related.alike owned).listed
    exact ⟨platform, owned,
      goes.answer sharedBehind (fun still => (opens (Or.inl still) _ owned).1)
        (fresh alikeAfter.poolKept),
      goes.answer aloneBehind (fun still => (opens (Or.inr still) _ owned).1)
        (fresh alikeAfter.soloKept)⟩
  constructor
  · rintro index request next shared alone ⟨sharedAhead, aloneAhead, sharedBehind, aloneBehind,
      related, opens⟩
    obtain ⟨platform, owned, sharedMoves, aloneMoves⟩ :=
      moves sharedBehind aloneBehind related opens
    obtain ⟨same, onward⟩ := apart.own related
    have reply := sharedMoves.reply.trans (same.trans aloneMoves.reply.symm)
    refine ⟨reply, _, _, sharedMoves.after, aloneMoves.after, aloneMoves.reply ▸ onward, ?_⟩
    intro still
    have told : (shared.disk = prior ∨ alone.disk = prior) ∧
        (Batch.opening settings platform).told request (alone.answer tools request).1 := by
      rcases still with still | still
      · obtain ⟨before, told⟩ := sharedMoves.still still
        exact ⟨Or.inl before, reply ▸ told⟩
      · obtain ⟨before, told⟩ := aloneMoves.still still
        exact ⟨Or.inr before, told⟩
    refine (opens told.1).onward (fun other named => ?_)
    rw [owned] at named
    cases named
    exact told.2
  · rintro index other request next task shared alone theirs differ
      ⟨sharedAhead, aloneAhead, sharedBehind, aloneBehind, related, opens⟩
      ⟨sameAhead, theirsAhead, sameBehind, theirsBehind, relatedThere, opensThere⟩
    obtain rfl := sharedBehind.unique sameBehind
    obtain ⟨platform, -, sharedMoves, -⟩ := moves sharedBehind aloneBehind related opens
    refine ⟨_, theirsAhead, sharedMoves.after, theirsBehind,
      apart.others differ related relatedThere, ?_⟩
    rintro (still | still)
    · exact opensThere (Or.inl (sharedMoves.still still).1)
    · exact opensThere (Or.inr still)

def SharesNowhere (settings : Settings) (prior made : Disk) (owner : Nat → Option Platform)
    (index : Nat) (task : WorldTask α) (shared alone : World) : Prop :=
  match owner index with
  | none => ∃ value, task = .done value
  | some platform =>
      task.Brings (Batch.opening settings platform) (fun _ => True) ∧
      (shared.disk = prior ∨ shared.disk = made) ∧ (alone.disk = prior ∨ alone.disk = made) ∧
      shared.begun.contains platform.tag = alone.begun.contains platform.tag

theorem apart_nowhere (distinct : ∀ first second platform, owner first = some platform →
      owner second = some platform → first = second)
    (nowhere : ∀ index platform, owner index = some platform →
      GoesNowhere settings platform prior made) :
    Pool.Apart (α := α) tools (SharesNowhere settings prior made owner) := by
  refine Pool.apart_owned distinct ?_ ?_
  · rintro index platform request shared alone owned first ⟨sharedDisk, aloneDisk, begun⟩
    obtain ⟨reply, told, sharedLeft, aloneLeft⟩ :=
      (nowhere _ _ owned).answer first begun sharedDisk aloneDisk
    exact ⟨reply, told, sharedLeft, aloneLeft, World.begun_own (opening_begins first) begun⟩
  · rintro index platform bystander request shared alone theirs owned notSame first
      ⟨sharedDisk, aloneDisk, begun⟩ ⟨-, theirsDisk, begunThere⟩
    obtain ⟨-, -, sharedLeft, -⟩ := (nowhere _ _ owned).answer first begun sharedDisk aloneDisk
    exact ⟨sharedLeft, theirsDisk,
      (World.begun_others (opening_begins first) notSame).trans begunThere⟩

end Pools

end PlatformBundle
