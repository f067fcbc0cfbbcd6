import PlatformBundle.Proofs.DiskGrowth
/-!
Disks on which the same stands at every place. Their trees may list it in another order, but what is
done at an absolute path has the same outcome on both.
-/

namespace PlatformBundle

open FileTree

namespace Disk

structure Twins (first second : Disk) : Prop where
  same : first.tree.get? = second.tree.get?

structure Alike {α : Type} (first second : α × Disk) : Prop where
  result : first.1 = second.1
  twins : Twins first.2 second.2

theorem walk_twin {first second : FileTree} (same : first.get? = second.get?) (follow : Bool)
    (budget : Nat) : walk first follow budget = walk second follow budget := by
  have names (onward : RealPath → List String → Except IoCause Place) :
      walkNames first follow onward = walkNames second follow onward := by
    funext directory steps
    induction steps generalizing directory with
    | nil => rfl
    | cons name rest ih => simp only [walkNames, same, ih]
  induction budget with
  | zero => exact names _
  | succ left ih => rw [walk, walk, ih, names]

namespace Twins

variable {first second : Disk}

theorem refl (disk : Disk) : Twins disk disk := ⟨rfl⟩

theorem put (twins : Twins first second) {place : RealPath} (inside : place ≠ []) (node : Node) :
    Twins (first.withTree (first.tree.put place node))
      (second.withTree (second.tree.put place node)) := by
  refine ⟨funext fun other => ?_⟩
  change (first.tree.put place node).get? other = (second.tree.put place node).get? other
  rw [get?_put _ _ _ _ inside, get?_put _ _ _ _ inside, twins.same]

variable (twins : Twins first second) {path : Path} (absolute : path.isAbsolute = true)
include twins

section Absolute

include absolute

theorem locate_eq (follow : Bool) : first.locate follow path = second.locate follow path := by
  rw [locate, locate, walk_twin twins.same, startOf_absolute absolute, startOf_absolute absolute]

theorem locateLast_eq : first.locateLast path = second.locateLast path := by
  simp only [locateLast, walk_twin twins.same, startOf_absolute absolute]

theorem isDirectory_eq : first.isDirectory path = second.isDirectory path := by
  rw [isDirectory, isDirectory, stat, stat, twins.locate_eq absolute true]

theorem makeDir : Alike (first.makeDir path) (second.makeDir path) := by
  unfold Disk.makeDir
  rw [twins.locateLast_eq absolute]
  rcases second.locateLast path with cause | _ | last
  · exact ⟨rfl, twins⟩
  · exact ⟨rfl, twins⟩
  · dsimp only
    rw [twins.same]
    split
    · exact ⟨rfl, twins⟩
    split
    · exact ⟨rfl, twins⟩
    split
    · exact ⟨rfl, twins⟩
    · exact ⟨rfl, twins.put (by simp) _⟩

theorem makeDirIfMissing : Alike (first.makeDirIfMissing path) (second.makeDirIfMissing path) := by
  have made := twins.makeDir absolute
  unfold Disk.makeDirIfMissing
  rw [twins.isDirectory_eq absolute]
  generalize first.makeDir path = one at made
  generalize second.makeDir path = other at made
  obtain ⟨result, left⟩ := one
  obtain ⟨_, right⟩ := other
  obtain rfl : result = _ := made.result
  rcases result with cause | ⟨⟩
  · cases cause
    case fileExists =>
      dsimp only
      split
      · exact ⟨rfl, made.twins⟩
      · exact made
    all_goals exact made
  · exact made

end Absolute

theorem makeFrom {paths : List Path} (absolute : ∀ path ∈ paths, path.isAbsolute = true) :
    Alike (first.makeFrom paths) (second.makeFrom paths) := by
  induction paths generalizing first second with
  | nil => exact ⟨rfl, twins⟩
  | cons path above ih =>
      have here := absolute path List.mem_cons_self
      refine makeFrom_cons_both Alike.result (twins.makeDirIfMissing here) (fun _ => ?_) ?_
      · exact ih twins (fun other later => absolute other (List.mem_cons_of_mem _ later))
      · exact fun higher => higher.twins.makeDirIfMissing here

include absolute

theorem createDirs : Alike (first.createDirs path) (second.createDirs path) :=
  twins.makeFrom (ancestorsUpTo_absolute _ absolute)

theorem write (grounded : second.tree.Grounded) (content : ByteArray) :
    Alike (first.write path content) (second.write path content) := by
  unfold Disk.write
  rw [twins.locateLast_eq absolute, twins.locate_eq absolute]
  rcases second.locateLast path with cause | _ | last
  · exact ⟨rfl, twins⟩
  · exact ⟨rfl, twins⟩
  · dsimp only
    split
    · exact ⟨rfl, twins⟩
    rcases located : second.locate true path with cause | ⟨place, node⟩ | ⟨directory, name⟩
    · exact ⟨rfl, twins⟩
    · cases node with
      | directory => exact ⟨rfl, twins⟩
      | link target => exact ⟨rfl, twins⟩
      | file old executable =>
          have there : second.tree.get? place = some (.file old executable) :=
            locate_stands absolute grounded located
          refine ⟨rfl, twins.put ?_ _⟩
          rintro rfl
          rw [get?_root] at there
          cases there
    · exact ⟨rfl, twins.put (by simp) _⟩

theorem writeFile (grounded : second.tree.Grounded) (text : String) :
    Alike ((Files.write path text).onDisk first) ((Files.write path text).onDisk second) := by
  have ends {left right : Disk} (twins : Twins left right) (grounded : right.tree.Grounded) :
      Alike ((Files.writeHere path text).onDisk left)
        ((Files.writeHere path text).onDisk right) := by
    have wrote := twins.write absolute grounded text.toUTF8
    exact ⟨congrArg (onPath "writing file" path) wrote.result, wrote.twins⟩
  rw [Files.write_eq]
  split
  · rename_i above parent
    have made := twins.createDirs (Path.isAbsolute_parent absolute parent)
    have grown := createDirs_grown (fun _ => True) (Path.isAbsolute_parent absolute parent) grounded
      (Prod.eta (second.createDirs above)).symm
    have dirs : Alike ((Files.makeDir above).onDisk first) ((Files.makeDir above).onDisk second) :=
      ⟨congrArg (onPath "creating directory" above) made.result, made.twins⟩
    have left : ((Files.makeDir above).onDisk second).2 = (second.createDirs above).2 := rfl
    rw [FileWork.onDisk_bind, FileWork.onDisk_bind]
    rw [← left] at grown
    generalize (Files.makeDir above).onDisk first = one at dirs
    generalize (Files.makeDir above).onDisk second = other at dirs grown
    obtain ⟨result, onFirst⟩ := one
    obtain ⟨_, onSecond⟩ := other
    obtain rfl : result = _ := dirs.result
    rcases result with fault | ⟨⟩
    · exact ⟨rfl, dirs.twins⟩
    · exact ends dirs.twins grown.grounded
  · exact ends twins grounded

end Twins

end Disk

end PlatformBundle
