import PlatformBundle.Proofs.BundleSteps
import PlatformBundle.Proofs.FitRoots
import PlatformBundle.Proofs.MissingBase
import PlatformBundle.Proofs.WrittenFiles
/-!
Surroundings in which any call to the disk may fail. The caller is told of a failure, and a call
that fails takes away no more than it would have otherwise. So what a call can take away at most is
read off the disk's own answer to it; and when a root has been removed and made without a failure,
it is empty.
-/

namespace PlatformBundle

open FileTree Disk

namespace FileTree

/-- Nothing that stands in the one tree is missing in the other. -/
def Keeps (before after : FileTree) : Prop :=
  ∀ ⦃place⦄, before.get? place ≠ none → after.get? place ≠ none

variable {before middle after tree : FileTree}

theorem Keeps.refl (tree : FileTree) : Keeps tree tree := fun _ => id

theorem Keeps.trans (first : Keeps before middle) (second : Keeps middle after) :
    Keeps before after := fun _ stands => second (first stands)

theorem keeps_put (tree : FileTree) (place : RealPath) (node : Node) :
    Keeps tree (tree.put place node) := by
  intro other stands
  by_cases top : other = []
  · rw [top, get?_root]
    simp
  · by_cases inside : place = []
    · rw [get?, if_neg top] at stands ⊢
      rwa [put, find, inside, if_neg (Ne.symm top), find_without, if_neg (by simpa using top)]
    · rw [get?_put _ _ _ _ inside]
      split
      · simp
      · exact stands

end FileTree

namespace Disk

variable {disk left middle : Disk} {path root : Path} {names : List String} {last : String}

section Keeping

variable {result : Except IoCause Unit}

theorem createDirs_keeps (made : disk.createDirs path = (result, left)) :
    Keeps disk.tree left.tree :=
  makeFrom_related Keeps.refl (fun _ => keeps_put _ _ _) Keeps.trans made

theorem write_keeps {content : ByteArray} (wrote : disk.write path content = (result, left)) :
    Keeps disk.tree left.tree := by
  cases result with
  | error cause =>
      rw [write_error wrote]
      exact .refl _
  | ok =>
      obtain ⟨found, executable, -, rfl⟩ := write_ok_iff.mp wrote
      exact keeps_put _ _ _

end Keeping

section Removing

variable {spot : RealPath} (segments : ∀ name ∈ names ++ [last], IsSegment name)
  (proper : IsProper last)
include segments proper

theorem removeDir_elsewhere
    (apart : ∀ directory, LeadsTo disk.tree names directory → ¬ directory ++ [last] <+: spot) :
    (disk.removeDir (Path.ofReal (names ++ [last]))).2.tree.get? spot = disk.tree.get? spot := by
  unfold removeDir
  split
  · rfl
  · rfl
  · rename_i found located
    obtain ⟨directory, same, leads, -⟩ := locateLast_ok segments located
    cases same
    rw [if_neg proper.notHere, if_neg proper.notUp]
    dsimp only
    split
    · rfl
    · split
      · rfl
      · refine (get?_erase _ _ _).trans (if_neg ?_)
        rintro ⟨rfl, -⟩
        exact apart directory leads List.prefix_rfl
    · rfl

theorem removeTree_elsewhere
    (apart : ∀ directory, LeadsTo disk.tree names directory → ¬ directory ++ [last] <+: spot) :
    (disk.removeTree (Path.ofReal (names ++ [last]))).2.tree.get? spot = disk.tree.get? spot := by
  have within {place : RealPath} {node : Node}
      (located : disk.locate false (Path.ofReal (names ++ [last])) = .ok (.present place node)) :
      ¬ place <+: spot := by
    obtain ⟨-, walks⟩ := (locate_ok_iff segments).mp located
    obtain ⟨directory, leads⟩ := Walks.front walks rfl (List.cons_ne_nil last [])
    rcases LeadsTo.one leads walks proper with ⟨wrong, -⟩ | ⟨other, same, -⟩
    · cases wrong
    · cases same
      exact apart directory leads
  unfold removeTree
  split
  · rfl
  · rfl
  · rename_i place target located
    refine (get?_erase _ _ _).trans (if_neg ?_)
    rintro ⟨rfl, -⟩
    exact within located List.prefix_rfl
  · rfl
  · rename_i place located
    dsimp only
    have emptied : (disk.withTree (disk.tree.eraseBelow place)).tree.get? spot =
        disk.tree.get? spot := by
      refine (get?_eraseBelow _ _ _).trans (if_neg ?_)
      intro below
      obtain ⟨rest, -, rfl⟩ := (isBelow_iff _ _).mp below
      exact within located (List.prefix_append place rest)
    have onward : ∀ directory, LeadsTo (disk.withTree (disk.tree.eraseBelow place)).tree names
        directory → ¬ directory ++ [last] <+: spot :=
      fun directory leads => apart directory (leads.of_part (part_eraseBelow _ _))
    have gone := removeDir_elsewhere segments proper onward
    split
    · rename_i missing
      rw [missing] at gone
      exact gone.trans emptied
    · exact gone.trans emptied

end Removing

def EmptyAt (disk : Disk) (root : Path) : Prop :=
  ∃ top, disk.RootAt root top ∧ ∀ rest, rest ≠ [] → disk.tree.get? (top ++ rest) = none

theorem emptyAt_of_remade (proper : ∀ name ∈ names ++ [last], IsProper name)
    (grounded : disk.tree.Grounded) {result : Except IoCause Unit}
    (removed : disk.removeTree (Path.ofReal (names ++ [last])) = (result, middle))
    (fine : result = .ok () ∨ result = .error .notFound)
    (made : middle.createDirs (Path.ofReal (names ++ [last])) = (.ok (), left)) :
    left.EmptyAt (Path.ofReal (names ++ [last])) := by
  have gone := removeTree_removed proper grounded removed fine
  have blocked : Blocked middle.tree (names ++ [last]) := by
    intro top leads
    obtain ⟨directory, front⟩ := leads.front (List.cons_ne_nil last [])
    have free := gone.gone directory front
    have spot := front.spot_of_no_link leads (proper last (by simp)) (by simp [free])
    have stands := leads.stands gone.grounded
    rw [show top = directory ++ [last] from spot, free] at stands
    cases stands
  obtain ⟨top, new⟩ := newBase_of_made proper gone.grounded blocked made
  exact ⟨top, (rootAt_iff (segments_of_proper proper)).mpr ⟨checkText_of_made proper made,
    new.leads⟩, new.empty⟩

end Disk

namespace DiskCall

/-- A reply that tells of a failure. That a tree is missing is no failure to remove it. -/
def Fails : (call : DiskCall) → call.Reply → Prop
  | .removeTree _, reply => ∃ cause, reply = .error cause ∧ cause ≠ .notFound
  | .createDirs _, reply => ∃ cause, reply = .error cause
  | .write _ _, reply => ∃ cause, reply = .error cause
  | .readText _, reply => ∃ cause, reply = .error cause
  | .list _, reply => ∃ cause, reply = .error cause
  | .isDirectory _, reply => reply = false
  | .isThere _, reply => reply = false
  | .filesBelow _, _ => False

/-- What a call can come to: the disk answers it, or it fails, and has then taken away no more than
the disk would have. Which part of its work a failed call has done is left open. -/
inductive Outcome (call : DiskCall) (disk : Disk) : call.Reply → Disk → Prop where
  | done : Outcome call disk (call.answer disk).1 (call.answer disk).2
  | failed {reply : call.Reply} {left : Disk} (fails : call.Fails reply)
      (kept : ∀ spot, disk.tree.get? spot ≠ none →
        (call.answer disk).2.tree.get? spot ≠ none → left.tree.get? spot ≠ none) :
      Outcome call disk reply left

section Outcomes

variable {call : DiskCall} {disk left : Disk} {reply : call.Reply} {spot : RealPath}

theorem Outcome.kept (outcome : call.Outcome disk reply left)
    (stood : disk.tree.get? spot ≠ none) (stays : (call.answer disk).2.tree.get? spot ≠ none) :
    left.tree.get? spot ≠ none := by
  cases outcome with
  | done => exact stays
  | failed fails kept => exact kept spot stood stays

theorem Outcome.of_not_failed (outcome : call.Outcome disk reply left) (fine : ¬ call.Fails reply) :
    call.answer disk = (reply, left) := by
  cases outcome with
  | done => rfl
  | failed fails part => exact absurd fails fine

end Outcomes

def Spares (root : Path) (call : DiskCall) : Prop :=
  ∀ disk top rest, disk.RootAt root top → disk.tree.get? (top ++ modulesDir :: rest) ≠ none →
    (call.answer disk).2.tree.get? (top ++ modulesDir :: rest) ≠ none

variable {root : Path} {call : DiskCall}

theorem spares_of_reading (reading : call.IsReading) : call.Spares root := by
  intro disk top rest _ stands
  rwa [reading disk]

theorem spares_createDirs (path : Path) : (DiskCall.createDirs path).Spares root :=
  fun _ _ _ _ stands => createDirs_keeps rfl stands

theorem spares_write (path : Path) (text : String) : (DiskCall.write path text).Spares root :=
  fun _ _ _ _ stands => write_keeps rfl stands

theorem spares_removeTree {names : List String} {part : String}
    (segments : ∀ name ∈ names, IsSegment name) (proper : IsProper part)
    (other : part ≠ modulesDir) :
    (DiskCall.removeTree (Path.ofReal names / part)).Spares (Path.ofReal names) := by
  intro disk top rest here stands
  have leads := ((rootAt_iff segments).mp here).2
  rw [Path.ofReal_div_name segments proper.toIsSegment]
  refine ne_of_eq_of_ne (removeTree_elsewhere
    (segments_append_one segments proper.toIsSegment) proper ?_) stands
  intro directory front
  rw [front.unique leads]
  exact apart_of_names other.symm ⟨rest, by simp⟩

end DiskCall

structure Machine (σ : Type) where
  answer : (call : Call) → σ → call.Reply × σ
  disk : σ → Disk
  /-- The tags of the platforms that have begun a pass. -/
  begun : σ → KeySet
  file_outcome : ∀ (call : DiskCall) (state : σ), call.Outcome (disk state)
    (answer (.file call) state).1 (disk (answer (.file call) state).2)
  note_disk : ∀ (record : LogRecord) (state : σ),
    disk (answer (.note record) state).2 = disk state
  begin_reply : ∀ (platform : Platform) (state : σ),
    (answer (.beginPass platform) state).1 = !(begun state).contains platform.tag
  begin_begun : ∀ (platform : Platform) (state : σ),
    begun (answer (.beginPass platform) state).2 = (begun state).add platform.tag
  begin_disk : ∀ (platform : Platform) (state : σ),
    disk (answer (.beginPass platform) state).2 = disk state
  begun_kept : ∀ (call : Call) (state : σ), (∀ platform, call ≠ .beginPass platform) →
    begun (answer call state).2 = begun state

def World.machine (tools : Tools) : Machine World where
  answer := World.answer tools
  disk := World.disk
  begun := World.begun
  file_outcome := fun _ _ => .done
  note_disk := fun _ _ => rfl
  begin_reply := fun _ _ => rfl
  begin_begun := fun _ _ => rfl
  begin_disk := fun _ _ => rfl
  begun_kept := by
    intro call world other
    cases call with
    | beginPass platform => exact absurd rfl (other platform)
    | file call => rfl
    | note record => rfl
    | install root => rfl
    | bundle config root => rfl

namespace Machine

variable {σ α : Type} {machine : Machine σ} {root : Path} {platform : Platform} {state : σ}

/-- Unless it is made by a tool, a call takes nothing away from what is installed under a root. -/
def Spares (machine : Machine σ) (root : Path) (moment : Call × σ) : Prop :=
  moment.1.isTool = false → ∀ top rest, (machine.disk moment.2).RootAt root top →
    (machine.disk moment.2).tree.get? (top ++ modulesDir :: rest) ≠ none →
      (machine.disk (machine.answer moment.1 moment.2).2).tree.get? (top ++ modulesDir :: rest) ≠
        none

theorem spares_file {call : DiskCall} (spares : call.Spares root) (state : σ) :
    machine.Spares root (.file call, state) := by
  intro _ top rest here stands
  exact (machine.file_outcome call state).kept stands (spares _ top rest here stands)

theorem spares_of_same_disk {call : Call}
    (same : machine.disk (machine.answer call state).2 = machine.disk state) :
    machine.Spares root (call, state) := by
  intro _ top rest _ stands
  rwa [same]

theorem begun_answer (call : Call)
    (begun : (machine.begun state).contains platform.tag = true) :
    (machine.begun (machine.answer call state).2).contains platform.tag = true := by
  cases call with
  | beginPass other => rw [machine.begin_begun, KeySet.contains_add, begun, Bool.or_true]
  | file call => rwa [machine.begun_kept _ _ (by simp)]
  | note record => rwa [machine.begun_kept _ _ (by simp)]
  | install root => rwa [machine.begun_kept _ _ (by simp)]
  | bundle config root => rwa [machine.begun_kept _ _ (by simp)]

theorem begun_run (task : WorldTask α)
    (begun : (machine.begun state).contains platform.tag = true) :
    (machine.begun (Task.run machine.answer task state).2).contains platform.tag = true := by
  induction task generalizing state with
  | done value => exact begun
  | call request next ih => exact ih _ (machine.begun_answer request begun)

end Machine

end PlatformBundle
