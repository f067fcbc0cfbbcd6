import PlatformBundle.Proofs.ClosureCheck
import PlatformBundle.Proofs.TreeChanges
/-!
Places that a text spells below a directory, whatever components it has. As long as the components
do not climb out of a directory without links, a walk along them ends where they say.
-/

namespace PlatformBundle

open FileTree

namespace Path

open Text

/-- The names that components spell below the place where they start, if they stay below it. -/
def within (inner : RealPath) : List Component → Option RealPath
  | [] => some inner
  | .root :: _ => none
  | .here :: rest => within inner rest
  | .up :: rest => if inner = [] then none else within inner.dropLast rest
  | .name text :: rest => within (inner ++ [text]) rest

def bodyOf (text : String) : List Component := (pieces '/' text.toList).filterMap bodyComponent

theorem bodyOf_below {name : String} (proper : IsProper name) (text : String) :
    bodyOf (name ++ "/" ++ text) = .name name :: bodyOf text := by
  have spelled : (name ++ "/" ++ text).toList = name.toList ++ '/' :: text.toList := by simp
  rw [bodyOf, spelled, pieces_append proper.whole, List.filterMap_cons,
    bodyComponent_of_proper proper]
  rfl

/-- The steps of a walk along a text are its components, but for those that name nothing. -/
theorem filterMap_stepsOf (text : String) :
    (Disk.stepsOf text).filterMap (fun step => bodyComponent step.toList) = bodyOf text := by
  have kept (parts : List (List Char)) : ((parts.filter (fun piece => !piece.isEmpty)).map
      String.ofList).filterMap (fun step => bodyComponent step.toList) =
        parts.filterMap bodyComponent := by
    induction parts with
    | nil => rfl
    | cons part rest ih =>
        by_cases empty : part = []
        · rw [List.filter_cons_of_neg (by simp [empty]), ih, empty]
          rfl
        · rw [List.filter_cons_of_pos (by simp [empty]), List.map_cons, List.filterMap_cons,
            List.filterMap_cons, String.toList_ofList, ih]
  rw [Disk.stepsOf, List.filterMap_append, kept]
  split
  · exact List.append_nil _
  · exact List.append_nil _

theorem stepsOf_filled (text : String) : "" ∉ Disk.stepsOf text := by
  intro empty
  rcases List.mem_append.mp empty with piece | dot
  · obtain ⟨part, kept, same⟩ := List.mem_map.mp piece
    have none : part = [] := by simpa using congrArg String.toList same
    simp [none] at kept
  · split at dot
    · revert dot
      decide
    · cases dot

-- A text without a name at its end ends in a separator.
theorem getLast?_of_silent {chars : List Char}
    (silent : (pieces '/' chars).filter (fun piece => !piece.isEmpty) = []) :
    ('/' :: chars).getLast? = some '/' := by
  induction chars with
  | nil => rfl
  | cons c rest ih =>
      by_cases separator : c = '/'
      · rw [separator, pieces, if_pos rfl, List.filter_cons_of_neg (by simp)] at silent
        rw [separator, List.getLast?_cons_cons]
        exact ih silent
      · rw [pieces, if_neg separator] at silent
        split at silent <;> simp at silent

theorem stepsOf_below {name : String} (segment : IsSegment name) (text : String) :
    ∃ more, more ≠ [] ∧ Disk.stepsOf (name ++ "/" ++ text) = name :: more := by
  have spelled : (name ++ "/" ++ text).toList = name.toList ++ '/' :: text.toList := by simp
  have first : (pieces '/' (name ++ "/" ++ text).toList).filter (fun piece => !piece.isEmpty) =
      name.toList :: (pieces '/' text.toList).filter (fun piece => !piece.isEmpty) := by
    rw [spelled, pieces_append segment.whole,
      List.filter_cons_of_pos (by simpa using segment.filled)]
  rw [Disk.stepsOf, first]
  refine ⟨_, ?_, by rw [List.map_cons, String.ofList_toList, List.cons_append]⟩
  intro empty
  obtain ⟨silent, last⟩ := List.append_eq_nil_iff.mp empty
  have ends := getLast?_of_silent (List.map_eq_nil_iff.mp silent)
  rw [spelled, List.getLast?_append, ends] at last
  simp at last

theorem stepsOf_div {names : List String} (filled : names ≠ [])
    (segments : ∀ name ∈ names, IsSegment name) {name : String} (segment : IsSegment name)
    (text : String) : Disk.stepsOf (ofReal names / (name ++ "/" ++ text)).text =
      names ++ Disk.stepsOf (name ++ "/" ++ text) := by
  have isOpen : Closure.IsOpen (ofReal names) := by
    constructor
    · rw [← Bool.not_eq_true, String.isEmpty_iff, ← String.toList_inj, toList_ofReal]
      simp
    · simpa using getLast?_ofReal filled segments
  have relative : Closure.IsRelative (name ++ "/" ++ text) := by
    unfold Closure.IsRelative
    obtain ⟨c, chars, spelled⟩ := List.exists_cons_of_ne_nil segment.filled
    have notSlash : c ≠ '/' := by
      rintro rfl
      exact segment.whole (by simp [spelled])
    simp [spelled, notSlash]
  have joined : (ofReal names / (name ++ "/" ++ text)).text.toList =
      (ofReal names).text.toList ++ '/' :: (name ++ "/" ++ text).toList := by
    rw [Closure.div_text isOpen relative, String.toList_append, String.toList_append,
      List.append_assoc]
    rfl
  have whole : (pieces '/' (ofReal names / (name ++ "/" ++ text)).text.toList).filter
      (fun piece => !piece.isEmpty) = names.map String.toList ++
        (pieces '/' (name ++ "/" ++ text).toList).filter (fun piece => !piece.isEmpty) := by
    rw [joined, pieces_join, List.filter_append, pieces_ofReal filled segments,
      List.filter_cons_of_neg (by simp), List.filter_eq_self.mpr ?_]
    intro part member
    obtain ⟨other, listed, rfl⟩ := List.mem_map.mp member
    simpa using (segments other listed).filled
  have kept : (pieces '/' (name ++ "/" ++ text).toList).filter (fun piece => !piece.isEmpty) ≠
      [] := by
    have spelled : (name ++ "/" ++ text).toList = name.toList ++ '/' :: text.toList := by simp
    rw [spelled, pieces_append segment.whole,
      List.filter_cons_of_pos (by simpa using segment.filled)]
    simp
  have last : (ofReal names / (name ++ "/" ++ text)).text.toList.getLast? =
      (name ++ "/" ++ text).toList.getLast? := by
    have inside : (name ++ "/" ++ text).toList ≠ [] := by simp
    obtain ⟨c, chars, spelled⟩ := List.exists_cons_of_ne_nil inside
    rw [joined, spelled, List.getLast?_append, List.getLast?_cons_cons]
    exact Option.or_of_isSome (by simp)
  rw [Disk.stepsOf, Disk.stepsOf, whole, last]
  generalize (pieces '/' (name ++ "/" ++ text).toList).filter (fun piece => !piece.isEmpty) =
    parts at kept
  simp [kept, Function.comp_def]

end Path

namespace Disk

variable {tree : FileTree} {base spot : RealPath} {node : Node} {budget : Nat}
  {steps : List String}

/-- Below a directory without links a walk ends where its components say, unless they climb out. -/
theorem Walks.spot_within {inner result : RealPath} (clear : tree.Linkless base)
    (filled : "" ∉ steps)
    (walks : Walks tree true budget (base ++ inner) steps (.present spot node))
    (stays : Path.within inner (steps.filterMap (fun step => Path.bodyComponent step.toList)) =
      some result) : spot = base ++ result ∧ (node ≠ .directory → result ≠ []) := by
  generalize starts : base ++ inner = directory at walks
  generalize ends : Place.present spot node = place at walks
  have named {name : String} (entry : IsEntryName name) (spoken : name ≠ "") :
      Path.bodyComponent name.toList = some (.name name) := by
    have notHere : name.toList ≠ ['.'] := fun same => entry.notHere (String.toList_inj.mp same)
    have notUp : name.toList ≠ ['.', '.'] := fun same => entry.notUp (String.toList_inj.mp same)
    simp [Path.bodyComponent, Path.silent, notHere, notUp, spoken]
  induction walks generalizing inner with
  | done =>
      cases ends
      cases stays
      exact ⟨starts.symm, fun other => absurd rfl other⟩
  | here onward ih => exact ih (List.not_mem_of_not_mem_cons filled) stays starts ends
  | up onward ih =>
      have climbs : Path.bodyComponent "..".toList = some .up := rfl
      rw [List.filterMap_cons, climbs] at stays
      dsimp only at stays
      rw [Path.within] at stays
      by_cases top : inner = []
      · rw [if_pos top] at stays
        cases stays
      · rw [if_neg top] at stays
        refine ih (List.not_mem_of_not_mem_cons filled) stays ?_ ends
        rw [← starts, List.dropLast_append_of_ne_nil top]
  | vacant entry free => cases ends
  | @file _ _ name _ _ entry found =>
      cases ends
      have spoken : name ≠ "" := fun same => filled (same ▸ List.mem_cons_self)
      rw [List.filterMap_cons, named entry spoken] at stays
      cases stays
      exact ⟨by rw [← starts, List.append_assoc], fun _ => by simp⟩
  | link entry found stops => cases stops
  | @enter _ _ name _ _ entry found onward ih =>
      have spoken : name ≠ "" := fun same => filled (same ▸ List.mem_cons_self)
      rw [List.filterMap_cons, named entry spoken] at stays
      refine ih (List.not_mem_of_not_mem_cons filled) stays ?_ ends
      rw [← starts, List.append_assoc]
  | @jump _ _ name target _ _ entry found goes onward ih =>
      rw [← starts, List.append_assoc] at found
      exact absurd found (clear _ target)

end Disk

end PlatformBundle
