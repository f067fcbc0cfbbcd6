import PlatformBundle.Proofs.Interleaving
import PlatformBundle.Proofs.OwnWork
/-!
Batches of different platforms in one world. A tool is confined to the staging root of a platform
when it runs alike on disks that the platform sees alike, and changes nothing outside of the root.
With such tools the batches of a pool stay apart: each goes the way that it goes alone, and leaves
the same tree below its staging root.
-/

namespace PlatformBundle

open FileTree Disk

section Begun

variable {tools : Tools} {shared alone : World} {call : Call} {platform : Platform}
  (own : ∀ named, call = .beginPass named → named = platform)
include own

theorem World.begun_own
    (begun : shared.begun.contains platform.tag = alone.begun.contains platform.tag) :
    (shared.answer tools call).2.begun.contains platform.tag =
      (alone.answer tools call).2.begun.contains platform.tag := by
  cases call with
  | beginPass named =>
      obtain rfl := own named rfl
      simp [World.answer, World.beginPass]
  | file call | note record | install root | bundle config root => exact begun

theorem World.begun_others {other : Platform} (differ : platform ≠ other) :
    (shared.answer tools call).2.begun.contains other.tag = shared.begun.contains other.tag := by
  cases call with
  | beginPass named =>
      obtain rfl := own named rfl
      have tags : named.tag ≠ other.tag := fun same => differ (Platform.tag_injective same)
      simp [World.answer, World.beginPass, tags]
  | file call | note record | install root | bundle config root => rfl

end Begun

namespace Pool

variable {α : Type} {tools : Tools} {owner : Nat → Option Platform}
  {terms : Platform → Task.Terms Call.Reply} {Near : Platform → World → World → Prop}

variable (owner terms Near) in
/-- A task of a pool is done, or it keeps to the terms of its owner, and the world of the pool is
near to the world of the task run alone. -/
def Owned (index : Nat) (task : WorldTask α) (shared alone : World) : Prop :=
  match owner index with
  | none => ∃ value, task = .done value
  | some platform =>
      task.Brings (terms platform) (fun _ => True) ∧ Near platform shared alone

/-- Tasks of different owners do not get in each other's way, if a call on the terms of one keeps
the worlds near for all. -/
theorem apart_owned (distinct : ∀ first second platform, owner first = some platform →
      owner second = some platform → first = second)
    (own : ∀ {index platform request shared alone}, owner index = some platform →
      (terms platform).asks request → Near platform shared alone →
      (shared.answer tools request).1 = (alone.answer tools request).1 ∧
        (terms platform).told request (alone.answer tools request).1 ∧
        Near platform (shared.answer tools request).2 (alone.answer tools request).2)
    (others : ∀ {index platform bystander request shared alone theirs},
      owner index = some platform → platform ≠ bystander → (terms platform).asks request →
      Near platform shared alone → Near bystander shared theirs →
      Near bystander (shared.answer tools request).2 theirs) :
    Apart (α := α) tools (Owned owner terms Near) := by
  constructor
  · intro index request next shared alone related
    unfold Owned at related ⊢
    split at related
    · obtain ⟨_, wrong⟩ := related
      cases wrong
    · rename_i platform owned
      obtain ⟨⟨asks, onward⟩, near⟩ := related
      obtain ⟨same, told, nearAfter⟩ := own owned asks near
      exact ⟨same, onward _ told, nearAfter⟩
  · intro index other request next task shared alone theirs differ related relatedThere
    unfold Owned at related relatedThere ⊢
    split
    · rename_i nobody
      rwa [nobody] at relatedThere
    · rename_i bystander owned
      rw [owned] at relatedThere
      split at related
      · obtain ⟨_, wrong⟩ := related
        cases wrong
      · rename_i platform moves
        have notSame : platform ≠ bystander := by
          rintro rfl
          exact differ (distinct _ _ _ moves owned)
        exact ⟨relatedThere.1, others moves notSame related.1.1 related.2 relatedThere.2⟩

end Pool

namespace Surroundings

variable {around : Surroundings} {platform : Platform} {pool solo : Disk}

variable (around platform) in
/-- A tool that reads and changes the staging root of a platform, not those of the others, and
makes no link that leads out of it. -/
structure Confined (tool : Disk → ToolRun) : Prop where
  reads : ∀ pool solo, around.Alike platform pool solo → (tool pool).result = (tool solo).result ∧
    ∀ place, around.site.root platform <+: place →
      (tool pool).disk.tree.get? place = (tool solo).disk.tree.get? place
  changes : ∀ disk, around.Kept disk → Enclosed disk.tree (around.site.fence platform) →
    (tool disk).disk.workdir = disk.workdir ∧ ∀ place, ¬ around.site.root platform <+: place →
      (tool disk).disk.tree.get? place = disk.tree.get? place
  links : ∀ disk, around.Kept disk → Enclosed disk.tree (around.site.fence platform) →
    Enclosed (tool disk).disk.tree (around.site.fence platform)

theorem Alike.enclosed_pool (alike : around.Alike platform pool solo) :
    Enclosed pool.tree (around.site.fence platform) :=
  alike.enclosed.mono (fun place _ own found => (alike.agree place own).symm.trans found)
    (fun place own _ => alike.agree place own) (fun _ => Site.not_others)

theorem Alike.tool {tool : Disk → ToolRun} (alike : around.Alike platform pool solo)
    (confined : around.Confined platform tool) : around.Joint platform pool
      ((tool pool).result, (tool pool).disk) ((tool solo).result, (tool solo).disk) := by
  obtain ⟨result, inside⟩ := confined.reads pool solo alike
  obtain ⟨poolDir, poolOutside⟩ := confined.changes pool alike.poolKept alike.enclosed_pool
  obtain ⟨soloDir, soloOutside⟩ := confined.changes solo alike.soloKept alike.enclosed
  have foreign {place : RealPath} (free : ¬ around.site.Taken place) :
      ¬ around.site.root platform <+: place := fun own => free ⟨platform, alike.listed, own⟩
  refine ⟨result, ⟨alike.listed, ⟨?_, ?_⟩, ⟨?_, ?_⟩, ?_, ?_⟩, poolOutside⟩
  · exact fun place free => (poolOutside place (foreign free)).trans
      (alike.poolKept.outside place free)
  · exact poolDir.trans alike.poolKept.workdir
  · exact fun place free => (soloOutside place (foreign free)).trans
      (alike.soloKept.outside place free)
  · exact soloDir.trans alike.soloKept.workdir
  · intro place own
    by_cases home : around.site.root platform <+: place
    · exact inside place home
    · exact (poolOutside place home).trans ((alike.agree place own).trans
        (soloOutside place home).symm)
  · exact confined.links solo alike.soloKept alike.enclosed

variable (around) in
def ToolsConfined (tools : Tools) : Prop :=
  ∀ platform ∈ around.site.platforms,
    around.Confined platform (fun disk => tools.install disk (around.own platform [])) ∧
    ∀ config, around.Describes platform config → around.Confined platform
      (fun disk => tools.bundle disk config (around.own platform []))

section Answering

variable {tools : Tools} {shared alone : World} {call : Call}

theorem OwnCall.begins (own : around.OwnCall platform call) :
    ∀ named, call = .beginPass named → named = platform := by
  rintro _ rfl
  exact own

theorem Alike.answer_call (alike : around.Alike platform shared.disk alone.disk)
    (confined : around.ToolsConfined tools)
    (begun : shared.begun.contains platform.tag = alone.begun.contains platform.tag)
    (own : around.OwnCall platform call) : around.Joint platform shared.disk
      ((shared.answer tools call).1, (shared.answer tools call).2.disk)
      ((alone.answer tools call).1, (alone.answer tools call).2.disk) := by
  obtain ⟨installs, bundles⟩ := confined platform alike.listed
  cases call with
  | file call => exact alike.answer own
  | note record => exact alike.same rfl
  | beginPass other =>
      obtain rfl : other = platform := own
      exact alike.same (congrArg (!·) begun)
  | install root =>
      obtain rfl : root = around.own platform [] := own
      exact alike.tool installs
  | bundle config root =>
      obtain ⟨rfl, describes⟩ := own
      exact alike.tool (bundles config describes)

end Answering

section Pools

variable {α : Type} {tools : Tools}

variable (around) in
/-- A task of a pool, the world of the pool, and the world of the task run alone. The task is done,
or it is the batch of a platform and both worlds are alike for the platform. -/
def Shares (owner : Nat → Option Platform) (index : Nat) (task : WorldTask α)
    (shared alone : World) : Prop :=
  match owner index with
  | none => ∃ value, task = .done value
  | some platform =>
      task.Brings (around.terms platform) (fun _ => True) ∧
      around.Alike platform shared.disk alone.disk ∧
      shared.begun.contains platform.tag = alone.begun.contains platform.tag

theorem Shares.owned {owner : Nat → Option Platform} {index : Nat} {request : Call}
    {next : request.Reply → WorldTask α} {shared alone : World}
    (related : around.Shares owner index (.call request next) shared alone) :
    ∃ platform, owner index = some platform := by
  unfold Shares at related
  split at related
  · obtain ⟨_, wrong⟩ := related
    cases wrong
  · rename_i platform owned
    exact ⟨platform, owned⟩

theorem Shares.alike {owner : Nat → Option Platform} {index : Nat} {task : WorldTask α}
    {shared alone : World} (related : around.Shares owner index task shared alone)
    (owned : owner index = some platform) : around.Alike platform shared.disk alone.disk := by
  unfold Shares at related
  rw [owned] at related
  exact related.2.1

theorem apart (confined : around.ToolsConfined tools) {owner : Nat → Option Platform}
    (distinct : ∀ first second platform, owner first = some platform →
      owner second = some platform → first = second) :
    Pool.Apart (α := α) tools (around.Shares owner) := by
  refine Pool.apart_owned distinct ?_ ?_
  · rintro index platform request shared alone - own ⟨alike, begun⟩
    have joint := alike.answer_call confined begun own
    exact ⟨joint.result, trivial, joint.alike, World.begun_own own.begins begun⟩
  · rintro index platform bystander request shared alone theirs - notSame own ⟨alike, begun⟩
      ⟨alikeThere, begunThere⟩
    have joint := alike.answer_call confined begun own
    exact ⟨joint.unseen notSame alikeThere,
      (World.begun_others own.begins notSame).trans begunThere⟩

end Pools

end Surroundings

end PlatformBundle
