import PlatformBundle.Proofs.DiskSteps
/-!
What making directories and writing files does to a disk at any absolute path, also at one with
`..` in it. Whether the work ends well or not, the directories and links that were there stay,
nothing becomes a link, and what is new stands in a directory.
-/

namespace PlatformBundle

open FileTree Text

namespace Path

variable {path above : Path}

theorem isAbsolute_iff : path.isAbsolute = true ↔ ∃ rest, path.text.toList = '/' :: rest := by
  rw [isAbsolute]
  cases path.text.toList with
  | nil => simp
  | cons c rest => simp

theorem isAbsolute_parent (absolute : path.isAbsolute = true) (parent : path.parent = some above) :
    above.isAbsolute = true := by
  obtain ⟨rest, spelled⟩ := isAbsolute_iff.mp absolute
  rw [Path.parent, spelled, pieces, if_pos rfl] at parent
  dsimp only at parent
  split at parent
  · cases parent
  · split at parent
    · cases parent
      rfl
    · rename_i kept filled
      obtain ⟨last, more, backwards⟩ :=
        List.exists_cons_of_ne_nil (List.reverse_ne_nil_iff.mpr filled)
      cases parent
      rw [isAbsolute_iff, String.toList_ofList, backwards]
      exact ⟨_, rfl⟩

theorem isAbsolute_div (absolute : path.isAbsolute = true) (more : String) :
    (path / more).isAbsolute = true := by
  obtain ⟨rest, spelled⟩ := isAbsolute_iff.mp absolute
  change (join path more).isAbsolute = true
  unfold join
  split
  · assumption
  · split <;> simp [isAbsolute, spelled]

end Path

namespace Disk

variable {disk left : Disk} {path : Path}

theorem ancestorsUpTo_absolute (fuel : Nat) (absolute : path.isAbsolute = true) :
    ∀ other ∈ ancestorsUpTo fuel path, other.isAbsolute = true := by
  induction fuel generalizing path with
  | zero => simp [ancestorsUpTo]
  | succ fuel ih =>
      intro other listed
      rw [ancestorsUpTo] at listed
      split at listed
      · cases listed
      · split at listed
        · cases listed
        · rename_i above parent
          rcases List.mem_cons.mp listed with rfl | further
          · exact absolute
          · exact ih (Path.isAbsolute_parent absolute parent) other further

theorem startOf_absolute (absolute : path.isAbsolute = true) (directory : RealPath) :
    startOf directory path.text = [] := by
  rw [startOf]
  exact if_pos absolute

theorem locate_stands {follow : Bool} {place : Place} (absolute : path.isAbsolute = true)
    (grounded : disk.tree.Grounded) (located : disk.locate follow path = .ok place) :
    place.Stands disk.tree := by
  obtain ⟨-, -, walked⟩ := bind_eq_ok_iff.mp located
  rw [startOf_absolute absolute] at walked
  exact (walks_of_walk walked).stands grounded (get?_root _)

theorem locateLast_stands {last : Last} (absolute : path.isAbsolute = true)
    (grounded : disk.tree.Grounded) (located : disk.locateLast path = .ok (some last)) :
    disk.tree.get? last.directory = some .directory := by
  rw [locateLast] at located
  obtain ⟨-, -, located⟩ := bind_eq_ok_iff.mp located
  dsimp only at located
  split at located
  · cases located
  · obtain ⟨place, walked, ends⟩ := bind_eq_ok_iff.mp located
    rw [startOf_absolute absolute] at walked
    split at ends
    · cases ends
      exact (walks_of_walk walked).stands grounded (get?_root _)
    · cases ends
    · cases ends

theorem stat_grow {spared : RealPath → Prop} {place : RealPath} {node : Node}
    (absolute : path.isAbsolute = true) (grows : Grows spared disk.tree left.tree)
    (safe : spared place ∨ node = .directory) (found : disk.stat path = .ok (place, node)) :
    left.stat path = .ok (place, node) := by
  rw [stat_ok_iff, locate, bind_eq_ok_iff, startOf_absolute absolute] at found ⊢
  obtain ⟨⟨⟩, checked, walked⟩ := found
  exact ⟨(), checked, walk_of_walks ((walks_of_walk walked).grow grows safe)⟩

theorem makeDir_grown (spared : RealPath → Prop) {result : Except IoCause Unit}
    (absolute : path.isAbsolute = true) (grounded : disk.tree.Grounded)
    (made : disk.makeDir path = (result, left)) :
    Grown spared disk.tree left.tree := by
  cases result with
  | error cause =>
      rw [makeDir_error made]
      exact .refl spared grounded
  | ok =>
      obtain ⟨last, takes, rfl⟩ := makeDir_ok_iff.mp made
      exact ⟨.put_directory (by simp) takes.free,
        grounded.put (locateLast_stands absolute grounded takes.located) (Or.inl rfl)⟩

theorem makeDirIfMissing_grown (spared : RealPath → Prop) {result : Except IoCause Unit}
    (absolute : path.isAbsolute = true) (grounded : disk.tree.Grounded)
    (made : disk.makeDirIfMissing path = (result, left)) :
    Grown spared disk.tree left.tree := by
  cases result with
  | error cause =>
      rw [makeDirIfMissing_error made]
      exact .refl spared grounded
  | ok =>
      rcases makeDirIfMissing_ok made with new | ⟨-, rfl⟩
      · exact makeDir_grown spared absolute grounded new
      · exact .refl spared grounded

theorem makeFrom_grown (spared : RealPath → Prop) {paths : List Path}
    {result : Except IoCause Unit} (absolute : ∀ path ∈ paths, path.isAbsolute = true)
    (grounded : disk.tree.Grounded) (made : disk.makeFrom paths = (result, left)) :
    Grown spared disk.tree left.tree := by
  induction paths generalizing result left with
  | nil =>
      cases made
      exact .refl spared grounded
  | cons path above ih =>
      have here := absolute path List.mem_cons_self
      have further := fun other later => absolute other (List.mem_cons_of_mem path later)
      rcases makeFrom_cons made with atOnce | ⟨-, ⟨middle, makeAbove, make⟩ | ⟨cause, failed, -⟩⟩
      · exact makeDirIfMissing_grown spared here grounded atOnce
      · have grown := ih further makeAbove
        exact grown.trans (makeDirIfMissing_grown spared here grown.grounded make)
      · exact ih further failed

theorem createDirs_grown (spared : RealPath → Prop) {result : Except IoCause Unit}
    (absolute : path.isAbsolute = true) (grounded : disk.tree.Grounded)
    (made : disk.createDirs path = (result, left)) :
    Grown spared disk.tree left.tree :=
  makeFrom_grown spared (ancestorsUpTo_absolute _ absolute) grounded made

theorem write_grown {content : ByteArray} {result : Except IoCause Unit}
    (absolute : path.isAbsolute = true) (grounded : disk.tree.Grounded)
    (wrote : disk.write path content = (result, left)) :
    Grown (fun _ => False) disk.tree left.tree := by
  cases result with
  | error cause =>
      rw [write_error wrote]
      exact .refl _ grounded
  | ok =>
      obtain ⟨found, executable, takes, rfl⟩ := write_ok_iff.mp wrote
      have stands := locate_stands absolute grounded takes.located
      exact (takes.fillable.grown stands grounded content).weaken (fun _ => False.elim)

end Disk

namespace Files

variable {disk left : Disk} {path : Path}

theorem makeDir_grown (spared : RealPath → Prop) {result : Except Fault Unit}
    (absolute : path.isAbsolute = true) (grounded : disk.tree.Grounded)
    (made : (makeDir path).onDisk disk = (result, left)) : Grown spared disk.tree left.tree := by
  rw [makeDir_onDisk] at made
  cases made
  exact Disk.createDirs_grown spared absolute grounded rfl

theorem write_grown {text : String} {result : Except Fault Unit}
    (absolute : path.isAbsolute = true) (grounded : disk.tree.Grounded)
    (wrote : (write path text).onDisk disk = (result, left)) :
    Grown (fun _ => False) disk.tree left.tree := by
  have ending {middle last : Disk} {result : Except Fault Unit} (inside : middle.tree.Grounded)
      (ends : (writeHere path text).onDisk middle = (result, last)) :
      Grown (fun _ => False) middle.tree last.tree := by
    rw [writeHere_onDisk] at ends
    cases ends
    exact Disk.write_grown absolute inside rfl
  rw [write_eq] at wrote
  split at wrote
  · rename_i above parent
    rw [FileWork.onDisk_bind] at wrote
    split at wrote
    · rename_i middle made
      have grown := makeDir_grown (fun _ => False) (Path.isAbsolute_parent absolute parent)
        grounded made
      exact grown.trans (ending grown.grounded wrote)
    · rename_i fault middle made
      cases wrote
      exact makeDir_grown _ (Path.isAbsolute_parent absolute parent) grounded made
  · exact ending grounded wrote

end Files

end PlatformBundle
