import PlatformBundle.Proofs.RootNames
/-!
The staging roots of two platforms, as paths. Whatever the staging base is, the root of a platform
has the components of the base and one more, the directory name of the platform, made of harmless
characters alone. Two roots that are told apart by this one name lie side by side below the base:
neither is the other, and neither lies below the other.
-/

namespace PlatformBundle

open Text

namespace Path

-- Where the last piece of a text has no part in whether the path is absolute or how it begins.
theorem components_last (front : List Char) {last : List Char} (whole : '/' ∉ last) :
    components ⟨String.ofList (front ++ '/' :: last)⟩ =
      components ⟨String.ofList (front ++ ['/'])⟩ ++ (bodyComponent last).toList := by
  obtain ⟨first, rest, cut⟩ := List.exists_cons_of_ne_nil (pieces_ne_nil '/' front)
  have absolute : isAbsolute ⟨String.ofList (front ++ '/' :: last)⟩ =
      isAbsolute ⟨String.ofList (front ++ ['/'])⟩ := by
    cases front <;> simp [isAbsolute]
  have below : pieces '/' (front ++ '/' :: last) = first :: (rest ++ [last]) := by
    rw [pieces_join, cut, pieces_of_not_mem whole, List.cons_append]
  have bare : pieces '/' (front ++ ['/']) = first :: (rest ++ [[]]) := by
    rw [pieces_join, cut, List.cons_append]
    rfl
  have silent : bodyComponent [] = none := rfl
  simp only [components, String.toList_ofList, below, bare, absolute, List.filterMap_append,
    List.filterMap_cons, List.filterMap_nil, silent, List.append_nil, List.append_assoc]
  cases bodyComponent last <;> rfl

theorem components_closed {text : List Char} (filled : text ≠ []) :
    components ⟨String.ofList (text ++ ['/'])⟩ = components ⟨String.ofList text⟩ := by
  obtain ⟨first, rest, cut⟩ := List.exists_cons_of_ne_nil (pieces_ne_nil '/' text)
  have absolute : isAbsolute ⟨String.ofList (text ++ ['/'])⟩ =
      isAbsolute ⟨String.ofList text⟩ := by
    obtain ⟨c, chars, rfl⟩ := List.exists_cons_of_ne_nil filled
    simp [isAbsolute]
  have closed : pieces '/' (text ++ ['/']) = first :: (rest ++ [[]]) := by
    rw [pieces_join, cut, List.cons_append]
    rfl
  have silent : bodyComponent [] = none := rfl
  simp only [components, String.toList_ofList, cut, closed, absolute, List.filterMap_append,
    List.filterMap_cons, List.filterMap_nil, silent, List.append_nil]

/-- A name that is joined to a path is one more component of it, however the path is written. -/
theorem components_div (base : Path) {name : String} (proper : IsProper name) :
    (base / name).components = base.components ++ [.name name] := by
  obtain ⟨text⟩ := base
  obtain ⟨chars, rfl⟩ : ∃ chars, text = String.ofList chars :=
    ⟨text.toList, String.ofList_toList.symm⟩
  have relative : (name.toList.head? == some '/') = false := by
    rw [beq_eq_false_iff_ne]
    exact fun first => proper.whole (List.mem_of_mem_head? first)
  have named : (bodyComponent name.toList).toList = [.name name] := by
    rw [bodyComponent_of_proper proper]
    rfl
  have joined : (⟨String.ofList chars⟩ : Path) / name = join ⟨String.ofList chars⟩ name := rfl
  rw [joined, join, relative, if_neg Bool.false_ne_true]
  rcases chars.eq_nil_or_concat with rfl | ⟨front, last, rfl⟩
  · have empty : String.ofList [] ++ name = name := by simp
    rw [if_pos (by simp), empty, components_of_name proper]
    rfl
  rw [List.concat_eq_append]
  by_cases separator : last = '/'
  · have text : String.ofList (front ++ ['/']) ++ name =
        String.ofList (front ++ '/' :: name.toList) := by
      apply String.toList_inj.mp
      simp
    rw [separator, if_pos (by simp), text, components_last front proper.whole, named]
  · have text : String.ofList (front ++ [last]) ++ "/" ++ name =
        String.ofList ((front ++ [last]) ++ '/' :: name.toList) := by
      apply String.toList_inj.mp
      simp
    rw [if_neg (by simp [separator]), text, components_last (front ++ [last]) proper.whole, named,
      components_closed (by simp)]

theorem resolveFrom_append (start : RealPath) (front back : List Component) :
    resolveFrom start (front ++ back) = resolveFrom (resolveFrom start front) back := by
  induction front generalizing start with
  | nil => rfl
  | cons component rest ih => cases component <;> exact ih _

/-- The first path is the second or lies above it, read off the components. -/
def Holds (outer inner : Path) : Prop := outer.components <+: inner.components

end Path

namespace Platform

def isDirChar (c : Char) : Bool := c.isAlphanum || ['_', '-', '.', '%'].contains c

theorem isDirChar_hexDigit : ∀ n < 16, isDirChar (hexDigit n) = true := by decide

theorem isDirChar_plainByte : ∀ n < 256, isPlainByte (UInt8.ofNat n) = true →
    isDirChar (Char.ofNat n) = true := by decide +kernel

theorem isDirChar_spellByte (keepDots : Bool) (b : UInt8) :
    ∀ c ∈ spellByte keepDots b, isDirChar c = true := by
  have small := UInt8.toNat_lt b
  intro c listed
  unfold spellByte at listed
  split at listed
  · rename_i kept
    rw [List.mem_singleton.mp listed]
    rcases Bool.or_eq_true_iff.mp kept with plain | dotted
    · exact isDirChar_plainByte _ small (by rwa [UInt8.ofNat_toNat])
    · rw [eq_of_beq (Bool.and_eq_true_iff.mp dotted).1]
      decide
  · simp only [List.mem_cons, List.not_mem_nil, or_false] at listed
    rcases listed with rfl | rfl | rfl
    · decide
    · exact isDirChar_hexDigit _ (by omega)
    · exact isDirChar_hexDigit _ (by omega)

theorem dirName_isDirChar (platform : Platform) : platform.dirName.toList.all isDirChar = true := by
  unfold dirName
  dsimp only
  split
  · decide
  · rw [String.toList_ofList, List.all_eq_true]
    intro c listed
    obtain ⟨b, -, spelled⟩ := List.mem_flatMap.mp listed
    exact isDirChar_spellByte _ b c spelled

end Platform

theorem prefix_append_one_iff {α : Type} (front : List α) (first second : α) :
    front ++ [first] <+: front ++ [second] ↔ first = second := by
  rw [List.prefix_append_right_inj, List.cons_prefix_cons]
  simp

namespace Settings

variable (settings : Settings) (platform first second : Platform)

theorem components_stagingRoot : (settings.stagingRoot platform).components =
    settings.stagingBase.components ++ [.name platform.dirName] :=
  Path.components_div _ platform.isProper_dirName

theorem spelled_stagingRoot (workdir : RealPath) : (settings.stagingRoot platform).spelled workdir =
    settings.stagingBase.spelled workdir ++ [platform.dirName] := by
  rw [Path.spelled, components_stagingRoot, Path.resolveFrom_append]
  rfl

theorem dirName_eq_iff : first.dirName = second.dirName ↔ first = second :=
  ⟨Platform.dirName_injective, congrArg Platform.dirName⟩

theorem stagingRoot_holds_iff :
    (settings.stagingRoot first).Holds (settings.stagingRoot second) ↔ first = second := by
  rw [Path.Holds, components_stagingRoot, components_stagingRoot, prefix_append_one_iff,
    Path.Component.name.injEq, dirName_eq_iff]

theorem spelled_prefix_iff (workdir : RealPath) :
    (settings.stagingRoot first).spelled workdir <+: (settings.stagingRoot second).spelled workdir ↔
      first = second := by
  rw [spelled_stagingRoot, spelled_stagingRoot, prefix_append_one_iff, dirName_eq_iff]

theorem stagingRoot_eq_iff :
    settings.stagingRoot first = settings.stagingRoot second ↔ first = second := by
  constructor
  · intro same
    refine (stagingRoot_holds_iff settings first second).mp ?_
    rw [same]
    exact List.prefix_rfl
  · exact congrArg settings.stagingRoot

/-- Every platform has a staging root of its own: one harmless name below the staging base, which
is the root of another platform in no sense and holds no other root. -/
theorem stagingRoots_side_by_side (workdir : RealPath) :
    (first.dirName = second.dirName ↔ first = second) ∧
      IsProper first.dirName ∧ first.dirName.toList.all Platform.isDirChar = true ∧
      (settings.stagingRoot first).components =
        settings.stagingBase.components ++ [.name first.dirName] ∧
      (settings.stagingRoot first).spelled workdir =
        settings.stagingBase.spelled workdir ++ [first.dirName] ∧
      (settings.stagingRoot first = settings.stagingRoot second ↔ first = second) ∧
      ((settings.stagingRoot first).Holds (settings.stagingRoot second) ↔ first = second) ∧
      ((settings.stagingRoot first).spelled workdir <+:
        (settings.stagingRoot second).spelled workdir ↔ first = second) :=
  ⟨dirName_eq_iff first second, first.isProper_dirName, first.dirName_isDirChar,
    components_stagingRoot settings first, spelled_stagingRoot settings first workdir,
    stagingRoot_eq_iff settings first second, stagingRoot_holds_iff settings first second,
    spelled_prefix_iff settings first second workdir⟩

-- The tags that an encoder with two special cases might confuse.
example : (["", "%", ".", "%2E", "..", "%25"].map fun tag => (Platform.mk tag).dirName) =
    ["%", "%25", "%2E", "%252E", "%2E%2E", "%2525"] := by decide

end Settings

end PlatformBundle
