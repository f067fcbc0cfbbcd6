import PlatformBundle.Proofs.DiskGrowth
import PlatformBundle.Proofs.PlainWork
/-!
Where files are new or changed after a task that makes directories and writes files. Nothing goes
away on the way, so a path that was written still leads to its file in the end, and each file that
was not there before, or held something else, stands where one of these paths leads.
-/

namespace PlatformBundle

open FileTree Disk

/-- Each file of the later tree was there before, or it stands at one of the spots. -/
def FileTree.FilesOnly (spots : RealPath → Prop) (before after : FileTree) : Prop :=
  ∀ ⦃place content executable⦄, after.get? place = some (.file content executable) →
    spots place ∨ before.get? place = some (.file content executable)

namespace FileTree

variable {spots : RealPath → Prop} {before middle after tree : FileTree}

theorem FilesOnly.refl (spots : RealPath → Prop) (tree : FileTree) : FilesOnly spots tree tree :=
  fun _ _ _ stands => Or.inr stands

theorem FilesOnly.trans (first : FilesOnly spots before middle)
    (second : FilesOnly spots middle after) : FilesOnly spots before after := by
  intro place content executable stands
  rcases second stands with spot | earlier
  · exact Or.inl spot
  · exact first earlier

theorem filesOnly_put_directory {place : RealPath} (filled : place ≠ []) :
    FilesOnly spots tree (tree.put place .directory) := by
  intro other content executable stands
  rw [get?_put _ _ _ _ filled] at stands
  split at stands
  · cases stands
  · exact Or.inr stands

theorem filesOnly_put_file {place : RealPath} {content : ByteArray} {executable : Bool}
    (filled : place ≠ []) :
    FilesOnly (· = place) tree (tree.put place (.file content executable)) := by
  intro other _ _ stands
  rw [get?_put _ _ _ _ filled] at stands
  split at stands
  · rename_i here
    exact Or.inl here
  · exact Or.inr stands

end FileTree

namespace Disk

variable {disk left : Disk} {path : Path}

section Directories

variable {rel : FileTree → FileTree → Prop} {result : Except IoCause Unit}
  (refl : ∀ tree, rel tree tree)
  (step : ∀ {tree place}, get? tree place = none → rel tree (tree.put place .directory))
include refl step

theorem makeDir_related (made : disk.makeDir path = (result, left)) :
    rel disk.tree left.tree := by
  cases result with
  | error cause =>
      rw [makeDir_error made]
      exact refl disk.tree
  | ok =>
      obtain ⟨last, takes, rfl⟩ := makeDir_ok_iff.mp made
      exact step takes.free

theorem makeDirIfMissing_related (made : disk.makeDirIfMissing path = (result, left)) :
    rel disk.tree left.tree := by
  cases result with
  | error cause =>
      rw [makeDirIfMissing_error made]
      exact refl disk.tree
  | ok =>
      rcases makeDirIfMissing_ok made with new | ⟨-, rfl⟩
      · exact makeDir_related refl step new
      · exact refl _

/-- What holds of a tree and the same tree with a new directory holds before and after a path of
directories is made. -/
theorem makeFrom_related
    (trans : ∀ {before middle after}, rel before middle → rel middle after → rel before after)
    {paths : List Path} (made : disk.makeFrom paths = (result, left)) :
    rel disk.tree left.tree := by
  induction paths generalizing result left with
  | nil =>
      cases made
      exact refl _
  | cons path above ih =>
      rcases makeFrom_cons made with atOnce | ⟨-, ⟨middle, makeAbove, make⟩ | ⟨cause, failed, -⟩⟩
      · exact makeDirIfMissing_related refl step atOnce
      · exact trans (ih makeAbove) (makeDirIfMissing_related refl step make)
      · exact ih failed

omit refl step in
theorem makeFrom_filesOnly {spots : RealPath → Prop} {paths : List Path}
    (made : disk.makeFrom paths = (result, left)) : FilesOnly spots disk.tree left.tree := by
  refine makeFrom_related (FilesOnly.refl spots) (fun {tree place} free => ?_)
    FilesOnly.trans made
  refine filesOnly_put_directory ?_
  rintro rfl
  rw [get?_root] at free
  cases free

end Directories

theorem locate_filled {before after : Disk} {found : Place} {content : ByteArray}
    {executable : Bool} {spared : RealPath → Prop} (absolute : path.isAbsolute = true)
    (grows : Grows spared before.tree after.tree) (located : before.locate true path = .ok found)
    (notDirectory : ∀ spot, found ≠ .present spot .directory)
    (filled : after.tree.get? found.spot = some (.file content executable)) :
    after.locate true path = .ok (.present found.spot (.file content executable)) := by
  obtain ⟨⟨⟩, checked, walked⟩ := bind_eq_ok_iff.mp located
  rw [startOf_absolute absolute] at walked
  refine bind_eq_ok_iff.mpr ⟨(), checked, ?_⟩
  rw [startOf_absolute absolute]
  exact walk_of_walks ((walks_of_walk walked).fill grows filled notDirectory)

/-- Nothing went away, and each file that is new or changed stands where a path leads that was
written. -/
structure WritesAt (written : Path → Prop) (disk left : Disk) : Prop where
  grown : Grown (fun _ => False) disk.tree left.tree
  files : ∀ place content executable, left.tree.get? place = some (.file content executable) →
    disk.tree.get? place = some (.file content executable) ∨ ∃ path, written path ∧
      left.locate true path = .ok (.present place (.file content executable))

namespace WritesAt

variable {written : Path → Prop} {middle : Disk}

theorem of_grown (grown : Grown (fun _ => False) disk.tree left.tree)
    (same : FilesOnly (fun _ => False) disk.tree left.tree) : WritesAt written disk left :=
  ⟨grown, fun _ _ _ stands => (same stands).elim False.elim Or.inl⟩

theorem refl (grounded : disk.tree.Grounded) : WritesAt written disk disk :=
  .of_grown (.refl _ grounded) (.refl _ _)

theorem weaken {more : Path → Prop} (writes : WritesAt written disk left)
    (implies : ∀ path, written path → more path) : WritesAt more disk left := by
  refine ⟨writes.grown, fun place content executable stands => ?_⟩
  rcases writes.files place content executable stands with before | ⟨path, wrote, located⟩
  · exact Or.inl before
  · exact Or.inr ⟨path, implies path wrote, located⟩

-- Where a path has led to a file it still leads there, whatever the file now holds.
theorem trans (absolute : ∀ path, written path → path.isAbsolute = true)
    (first : WritesAt written disk middle) (second : WritesAt written middle left) :
    WritesAt written disk left := by
  refine ⟨first.grown.trans second.grown, fun place content executable stands => ?_⟩
  rcases second.files place content executable stands with earlier | later
  · rcases first.files place content executable earlier with before | ⟨path, wrote, located⟩
    · exact Or.inl before
    · refine Or.inr ⟨path, wrote, ?_⟩
      have notDirectory : ∀ spot, Place.present place (.file content executable) ≠
          .present spot .directory := by
        rintro spot ⟨⟩
      exact locate_filled (absolute path wrote) second.grown.toGrows located notDirectory stands
  · exact Or.inr later

end WritesAt

theorem createDirs_writesAt {written : Path → Prop} {result : Except IoCause Unit}
    (absolute : path.isAbsolute = true) (grounded : disk.tree.Grounded)
    (made : disk.createDirs path = (result, left)) : WritesAt written disk left :=
  .of_grown (createDirs_grown _ absolute grounded made) (makeFrom_filesOnly made)

theorem write_writesAt {content : ByteArray} {result : Except IoCause Unit}
    (absolute : path.isAbsolute = true) (grounded : disk.tree.Grounded)
    (wrote : disk.write path content = (result, left)) : WritesAt (· = path) disk left := by
  have grown := write_grown absolute grounded wrote
  cases result with
  | error cause =>
      rw [write_error wrote]
      exact .refl grounded
  | ok =>
      obtain ⟨found, executable, takes, rfl⟩ := write_ok_iff.mp wrote
      have stands := locate_stands absolute grounded takes.located
      refine ⟨grown, fun place text runnable there => ?_⟩
      rcases filesOnly_put_file (takes.fillable.inside stands) there with rfl | before
      · exact Or.inr ⟨path, rfl, locate_filled absolute grown.toGrows takes.located
          takes.fillable.ne_directory there⟩
      · exact Or.inl before

end Disk

def Call.Builds : Call → Prop
  | .file (.removeTree _) => False
  | .file (.createDirs path) => path.isAbsolute = true
  | .file (.write path _) => path.isAbsolute = true
  | .file _ => True
  | .note _ => True
  | .beginPass _ => True
  | .install _ => False
  | .bundle _ _ => False

def Work.callsOn {α : Type} (work : Work α) (disk : Disk) : List Call :=
  Task.calls (World.answer WorldTask.idleTools) work.run (World.onDisk disk)

section Traces

variable {α : Type} {tools : Tools} {world : World}

def Writes (calls : List Call) (path : Path) : Prop :=
  ∃ text, Call.file (.write path text) ∈ calls

theorem answer_writesAt (tools : Tools) {call : Call} (builds : call.Builds)
    (grounded : world.disk.tree.Grounded) :
    WritesAt (Writes [call]) world.disk (world.answer tools call).2.disk := by
  cases call with
  | file call =>
      cases call with
      | removeTree path => exact builds.elim
      | createDirs path => exact createDirs_writesAt builds grounded rfl
      | write path text =>
          refine (write_writesAt builds grounded rfl).weaken ?_
          rintro other rfl
          exact ⟨text, List.mem_singleton_self _⟩
      | readText path => exact .refl grounded
      | list path => exact .refl grounded
      | isDirectory path => exact .refl grounded
      | isThere path => exact .refl grounded
      | filesBelow path => exact .refl grounded
  | note record => exact .refl grounded
  | beginPass platform => exact .refl grounded
  | install root => exact builds.elim
  | bundle config root => exact builds.elim

theorem run_writesAt {task : WorldTask α} (grounded : world.disk.tree.Grounded)
    (builds : ∀ call ∈ Task.calls (World.answer tools) task world, call.Builds) :
    WritesAt (Writes (Task.calls (World.answer tools) task world)) world.disk
      (task.inWorld tools world).2.disk := by
  have absolute : ∀ path, Writes (Task.calls (World.answer tools) task world) path →
      path.isAbsolute = true := by
    rintro path ⟨text, made⟩
    exact builds _ made
  induction task generalizing world with
  | done value => exact .refl grounded
  | call request next ih =>
      have here := builds request List.mem_cons_self
      have first := answer_writesAt tools here grounded
      have later := ih _ first.grown.grounded
        (fun call made => builds call (List.mem_cons_of_mem _ made)) ?_
      · refine WritesAt.trans absolute (first.weaken ?_) (later.weaken ?_)
        · rintro path ⟨text, made⟩
          refine ⟨text, ?_⟩
          rw [List.mem_singleton.mp made]
          exact List.mem_cons_self
        · rintro path ⟨text, made⟩
          exact ⟨text, List.mem_cons_of_mem _ made⟩
      · rintro path ⟨text, made⟩
        exact absolute path ⟨text, List.mem_cons_of_mem _ made⟩

end Traces

end PlatformBundle
