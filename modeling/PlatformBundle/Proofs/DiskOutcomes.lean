import PlatformBundle.Proofs.Sequencing
import PlatformBundle.Proofs.TreeChanges
/-!
How the operations that build on a disk end, each of them stated once. A failed step leaves the
disk as it was. A step that succeeds says what was found where its path leads, and its result is
the same tree with one place filled. What holds of every step or of every run of them is proved
from these statements, so that no other proof has to open the operations.
-/

namespace PlatformBundle.Disk

open FileTree

variable {disk left : Disk} {path : Path}

theorem isDotName_eq_false_iff {name : String} :
    isDotName name = false ↔ name ≠ "." ∧ name ≠ ".." := by
  simp [isDotName]

section Directories

structure TakesDir (disk : Disk) (path : Path) (last : Last) : Prop where
  located : disk.locateLast path = .ok (some last)
  entry : IsEntryName last.name
  free : disk.tree.get? (last.directory ++ [last.name]) = none

theorem TakesDir.checked {last : Last} (takes : disk.TakesDir path last) :
    checkText path.text = .ok () := by
  obtain ⟨⟨⟩, checked, -⟩ := bind_eq_ok_iff.mp takes.located
  exact checked

theorem makeDir_ok_iff : disk.makeDir path = (.ok (), left) ↔ ∃ last, disk.TakesDir path last ∧
    left = disk.withTree (disk.tree.put (last.directory ++ [last.name]) .directory) := by
  constructor
  · intro made
    unfold makeDir at made
    split at made
    · cases made
    · cases made
    · rename_i last located
      split at made
      · cases made
      · rename_i own
        obtain ⟨notHere, notUp⟩ := isDotName_eq_false_iff.mp (Bool.eq_false_iff.mpr own)
        split at made
        · cases made
        · rename_i short
          dsimp only at made
          split at made
          · cases made
          · rename_i free
            cases made
            exact ⟨last, ⟨located, ⟨notHere, notUp, Nat.le_of_not_lt short⟩, free⟩, rfl⟩
  · rintro ⟨last, ⟨located, ⟨notHere, notUp, short⟩, free⟩, rfl⟩
    have own : isDotName last.name = false := isDotName_eq_false_iff.mpr ⟨notHere, notUp⟩
    simp only [makeDir, located, own, Nat.not_lt.mpr short, free, Bool.false_eq_true, if_false]

theorem makeDir_error {cause : IoCause} (failed : disk.makeDir path = (.error cause, left)) :
    left = disk := by
  unfold makeDir at failed
  split at failed
  · cases failed; rfl
  · cases failed; rfl
  · dsimp only at failed
    split at failed
    · cases failed; rfl
    · split at failed
      · cases failed; rfl
      · split at failed
        · cases failed; rfl
        · cases failed

theorem makeDirIfMissing_error {cause : IoCause}
    (failed : disk.makeDirIfMissing path = (.error cause, left)) : left = disk := by
  unfold makeDirIfMissing at failed
  split at failed
  · cases failed
  · rename_i same made
    have back := makeDir_error made
    split at failed
    · cases failed
    · cases failed
      exact back
  · rename_i made
    have back := makeDir_error made
    cases failed
    exact back

theorem makeDirIfMissing_ok (made : disk.makeDirIfMissing path = (.ok (), left)) :
    disk.makeDir path = (.ok (), left) ∨ disk.isDirectory path = true ∧ left = disk := by
  unfold makeDirIfMissing at made
  split at made
  · rename_i new
    cases made
    exact Or.inl new
  · rename_i same failed
    have back := makeDir_error failed
    split at made
    · rename_i there
      cases made
      exact Or.inr ⟨there, back⟩
    · cases made
  · cases made

/-- The paths above are turned to exactly where a path is missing with what is above it. -/
theorem makeFrom_cons {above : List Path} {result : Except IoCause Unit}
    (made : disk.makeFrom (path :: above) = (result, left)) :
    disk.makeDirIfMissing path = (result, left) ∨
      disk.makeDirIfMissing path = (.error .notFound, disk) ∧
        ((∃ middle, disk.makeFrom above = (.ok (), middle) ∧
            middle.makeDirIfMissing path = (result, left)) ∨
          ∃ cause, disk.makeFrom above = (.error cause, left) ∧ result = .error cause) := by
  rw [makeFrom] at made
  split at made
  · rename_i same missing
    obtain rfl := makeDirIfMissing_error missing
    refine Or.inr ⟨missing, ?_⟩
    split at made
    · rename_i middle makeAbove
      exact Or.inl ⟨middle, makeAbove, made⟩
    · rename_i cause middle makeAbove
      cases made
      exact Or.inr ⟨cause, makeAbove, rfl⟩
  · exact Or.inl made

theorem makeFrom_cons_ok {above : List Path}
    (made : disk.makeFrom (path :: above) = (.ok (), left)) :
    disk.makeDirIfMissing path = (.ok (), left) ∨
      disk.makeDirIfMissing path = (.error .notFound, disk) ∧
        ∃ middle, disk.makeFrom above = (.ok (), middle) ∧
          middle.makeDirIfMissing path = (.ok (), left) := by
  rcases makeFrom_cons made with atOnce | ⟨missing, later | ⟨cause, -, wrong⟩⟩
  · exact Or.inl atOnce
  · exact Or.inr ⟨missing, later⟩
  · cases wrong

theorem makeFrom_cons_both {rel : DiskResult Unit → DiskResult Unit → Prop} {first second : Disk}
    {above : List Path} (same : ∀ {one other}, rel one other → one.1 = other.1)
    (here : rel (first.makeDirIfMissing path) (second.makeDirIfMissing path))
    (higher : (first.makeDirIfMissing path).1 = .error .notFound →
      rel (first.makeFrom above) (second.makeFrom above))
    (after : ∀ {one other : Disk}, rel (.ok (), one) (.ok (), other) →
      rel (one.makeDirIfMissing path) (other.makeDirIfMissing path)) :
    rel (first.makeFrom (path :: above)) (second.makeFrom (path :: above)) := by
  rw [makeFrom, makeFrom]
  rcases one : first.makeDirIfMissing path with ⟨result, firstLeft⟩
  rcases other : second.makeDirIfMissing path with ⟨_, secondLeft⟩
  rw [one, other] at here
  obtain rfl : result = _ := same here
  rcases result with cause | ⟨⟩
  · by_cases missing : cause = .notFound
    · subst missing
      obtain rfl := makeDirIfMissing_error one
      obtain rfl := makeDirIfMissing_error other
      have ends := higher (congrArg Prod.fst one)
      dsimp only
      generalize firstLeft.makeFrom above = oneMade at ends ⊢
      generalize secondLeft.makeFrom above = otherMade at ends ⊢
      obtain ⟨result, firstMade⟩ := oneMade
      obtain ⟨_, secondMade⟩ := otherMade
      obtain rfl : result = _ := same ends
      rcases result with cause | ⟨⟩
      · exact ends
      · exact after ends
    · cases cause
      case notFound => exact absurd rfl missing
      all_goals exact here
  · exact here

end Directories

section Files

/-- A place that a file can be put at: a free name, or a file, which stays as runnable as it
was. -/
inductive Place.Fillable : Place → Bool → Prop where
  | vacant (directory : RealPath) (name : String) : Fillable (.vacant directory name) false
  | file (place : RealPath) (old : ByteArray) (executable : Bool) :
      Fillable (.present place (.file old executable)) executable

namespace Place.Fillable

variable {tree : FileTree} {found : Place} {executable : Bool}
  (fillable : found.Fillable executable)
include fillable

theorem ne_directory (spot : RealPath) : found ≠ .present spot .directory := by
  cases fillable <;> simp

variable (stands : found.Stands tree)
include stands

theorem inside : found.spot ≠ [] := by
  cases fillable with
  | vacant directory name => simp [Place.spot]
  | file place old executable =>
      rintro (rfl : place = [])
      rw [Place.Stands, get?_root] at stands
      cases stands

theorem not_directory : tree.get? found.spot ≠ some .directory := by
  cases fillable with
  | vacant directory name => simp [Place.spot, stands.2]
  | file place old executable => simp [Place.spot, show tree.get? place = _ from stands]

theorem not_link (target : String) : tree.get? found.spot ≠ some (.link target) := by
  cases fillable with
  | vacant directory name => simp [Place.spot, stands.2]
  | file place old executable => simp [Place.spot, show tree.get? place = _ from stands]

theorem above (grounded : tree.Grounded) : ∃ front last, found.spot = front ++ [last] ∧
    tree.get? front = some .directory := by
  cases fillable with
  | vacant directory name => exact ⟨directory, name, rfl, stands.1⟩
  | file place old executable =>
      have there : tree.get? place = some (.file old executable) := stands
      rcases place.eq_nil_or_concat with rfl | ⟨front, last, rfl⟩
      · rw [get?_root] at there
        cases there
      · rw [List.concat_eq_append] at there ⊢
        exact ⟨front, last, rfl, grounded front last (by simp [there])⟩

end Place.Fillable

/-- A file can be written at a path: it ends in a name of its own and leads to a free name or to a
file. -/
structure TakesFile (disk : Disk) (path : Path) (found : Place) (executable : Bool) : Prop where
  named : ∃ last, disk.locateLast path = .ok (some last) ∧
    (last.slash || isDotName last.name) = false
  located : disk.locate true path = .ok found
  fillable : found.Fillable executable

theorem TakesFile.checked {found : Place} {executable : Bool}
    (takes : disk.TakesFile path found executable) : checkText path.text = .ok () := by
  obtain ⟨⟨⟩, checked, -⟩ := bind_eq_ok_iff.mp takes.located
  exact checked

variable {content : ByteArray}

theorem write_ok_iff : disk.write path content = (.ok (), left) ↔
    ∃ found executable, disk.TakesFile path found executable ∧
      left = disk.withTree (disk.tree.put found.spot (.file content executable)) := by
  constructor
  · intro wrote
    unfold write at wrote
    split at wrote
    · cases wrote
    · cases wrote
    · rename_i last known
      split at wrote
      · cases wrote
      · rename_i own
        have named : ∃ last, disk.locateLast path = .ok (some last) ∧
            (last.slash || isDotName last.name) = false :=
          ⟨last, known, Bool.eq_false_iff.mpr own⟩
        split at wrote
        · cases wrote
        · rename_i directory name located
          cases wrote
          exact ⟨_, _, ⟨named, located, .vacant directory name⟩, rfl⟩
        · rename_i place old executable located
          cases wrote
          exact ⟨_, _, ⟨named, located, .file place old executable⟩, rfl⟩
        · cases wrote
  · rintro ⟨found, executable, ⟨⟨last, known, own⟩, located, fillable⟩, rfl⟩
    simp only [write, known, own, located, Bool.false_eq_true, if_false]
    cases fillable <;> rfl

theorem write_error {cause : IoCause} (failed : disk.write path content = (.error cause, left)) :
    left = disk := by
  unfold write at failed
  split at failed
  · cases failed; rfl
  · cases failed; rfl
  · split at failed
    · cases failed; rfl
    · split at failed
      · cases failed; rfl
      · cases failed
      · cases failed
      · cases failed; rfl

end Files

section Links

end Links

end PlatformBundle.Disk
