import PlatformBundle.Proofs.Paths
import PlatformBundle.Proofs.Sequencing
import PlatformBundle.Proofs.TreeChanges
/-!
What a path names that is spelled out from the root. A walk along its names goes on from the
directory that the first of them lead to, and where no link is met the names spell the place.
-/

namespace PlatformBundle

open FileTree

namespace Disk

/-- The names lead from the root to a directory, where links are followed. -/
def LeadsTo (tree : FileTree) (names : List String) (place : RealPath) : Prop :=
  Walks tree true linkBudget [] names (.present place .directory)

namespace LeadsTo

variable {tree before after : FileTree} {names more : List String} {place other : RealPath}

theorem unique (first : LeadsTo tree names place) (second : LeadsTo tree names other) :
    place = other := by
  have same := Walks.unique first second
  cases same
  rfl

theorem stands (leads : LeadsTo tree names place) (grounded : tree.Grounded) :
    tree.get? place = some .directory :=
  Walks.stands leads grounded tree.get?_root

theorem grow {spared : RealPath → Prop} (grows : Grows spared before after)
    (leads : LeadsTo before names place) : LeadsTo after names place :=
  Walks.grow grows (Or.inr rfl) leads

theorem of_part (part : Part before after) (leads : LeadsTo before names place) :
    LeadsTo after names place :=
  Walks.of_part part leads

theorem onward (leads : LeadsTo tree names place) : ∃ left, ∀ follow more, more ≠ [] →
    walk tree follow linkBudget [] (names ++ more) = walk tree follow left place more :=
  Walks.append leads

theorem enter {last : String} (leads : LeadsTo tree names place) (entry : IsEntryName last)
    (found : tree.get? (place ++ [last]) = some .directory) :
    LeadsTo tree (names ++ [last]) (place ++ [last]) := by
  obtain ⟨left, same⟩ := leads.onward
  apply walks_of_walk
  rw [same true _ (List.cons_ne_nil last []), walk_name _ _ _ _ entry, walkName, found]
  exact walk_nil tree true _ _

theorem here (leads : LeadsTo tree names place) : LeadsTo tree (names ++ ["."]) place := by
  obtain ⟨budget, same⟩ := leads.onward
  apply walks_of_walk
  rw [same true _ (List.cons_ne_nil "." []), walk_here, walk_nil]

theorem up (leads : LeadsTo tree names place) : LeadsTo tree (names ++ [".."]) place.dropLast := by
  obtain ⟨budget, same⟩ := leads.onward
  apply walks_of_walk
  rw [same true _ (List.cons_ne_nil ".." []), walk_up, walk_nil]

theorem front (leads : LeadsTo tree (names ++ more) place) (filled : more ≠ []) :
    ∃ middle, LeadsTo tree names middle :=
  Walks.front leads rfl filled

/-- Where no link is met after the first names, the other names spell the rest of the place. -/
theorem spot_eq {follow : Bool} {found : Place} (leads : LeadsTo tree names place)
    (walks : Walks tree follow linkBudget [] (names ++ more) found) (filled : more ≠ [])
    (proper : ∀ name ∈ more, IsProper name)
    (clear : ∀ front target, front ≠ [] → front <+: more →
      tree.get? (place ++ front) ≠ some (.link target)) : found.spot = place ++ more := by
  obtain ⟨left, same⟩ := leads.onward
  have onward : Walks tree follow left place more found := by
    apply walks_of_walk
    rw [← same follow more filled]
    exact walk_of_walks walks
  exact onward.spot_of_linkless
    (fun name listed => ⟨(proper name listed).notHere, (proper name listed).notUp⟩) clear

theorem spot_of_linkless {follow : Bool} {found : Place} {first : String}
    (leads : LeadsTo tree names place)
    (walks : Walks tree follow linkBudget [] (names ++ first :: more) found)
    (proper : ∀ name ∈ first :: more, IsProper name)
    (clear : tree.Linkless (place ++ [first])) : found.spot = place ++ first :: more := by
  refine leads.spot_eq walks (List.cons_ne_nil first more) proper ?_
  intro front target filled inside
  obtain ⟨other, rest, rfl⟩ := List.exists_cons_of_ne_nil filled
  obtain ⟨rfl, -⟩ := List.cons_prefix_cons.mp inside
  simpa using clear rest target

theorem spot_of_no_link {follow : Bool} {found : Place} {last : String}
    (leads : LeadsTo tree names place)
    (walks : Walks tree follow linkBudget [] (names ++ [last]) found) (proper : IsProper last)
    (noLink : ∀ target, tree.get? (place ++ [last]) ≠ some (.link target)) :
    found.spot = place ++ [last] := by
  refine leads.spot_eq walks (List.cons_ne_nil last []) (by simpa using proper) ?_
  intro front target filled inside
  obtain ⟨other, rest, rfl⟩ := List.exists_cons_of_ne_nil filled
  obtain ⟨rfl, rest⟩ := List.cons_prefix_cons.mp inside
  rw [List.prefix_nil.mp rest]
  exact noLink target

theorem one {last : String} {found : Place} (leads : LeadsTo tree names place)
    (walks : Walks tree false linkBudget [] (names ++ [last]) found) (proper : IsProper last) :
    found = .vacant place last ∧ tree.get? (place ++ [last]) = none ∨
      ∃ node, found = .present (place ++ [last]) node ∧
        tree.get? (place ++ [last]) = some node := by
  obtain ⟨left, same⟩ := leads.onward
  have onward : Walks tree false left place [last] found := by
    apply walks_of_walk
    rw [← same false _ (List.cons_ne_nil last [])]
    exact walk_of_walks walks
  exact (onward.one proper.notHere proper.notUp).2

-- The step changes nothing on the way, unless it is the last.
theorem step_here {follow : Bool} (leads : LeadsTo tree names place) (filled : more ≠ []) :
    walk tree follow linkBudget [] (names ++ "." :: more) =
      walk tree follow linkBudget [] (names ++ more) := by
  obtain ⟨left, same⟩ := leads.onward
  rw [same follow _ (List.cons_ne_nil "." more), same follow more filled, walk_here]

theorem one_ne_notFound {last : String} (leads : LeadsTo tree names place)
    (proper : IsProper last) :
    walk tree false linkBudget [] (names ++ [last]) ≠ .error .notFound := by
  obtain ⟨left, same⟩ := leads.onward
  rw [same false _ (List.cons_ne_nil last [])]
  by_cases long : longestName < last.utf8ByteSize
  · rw [walk_longName _ _ _ _ proper.notHere proper.notUp long]
    simp
  · rw [walk_name _ _ _ _ ⟨proper.notHere, proper.notUp, Nat.le_of_not_lt long⟩, walkName]
    split
    · simp
    · rw [walk_nil]
      simp
    · simp
    · simp

end LeadsTo

section Locating

variable {disk : Disk} {names more : List String} {last : String} {follow : Bool} {place : Place}

theorem checkText_ofReal_ne_notFound (names : List String) :
    checkText (Path.ofReal names).text ≠ .error .notFound := by
  have filled : (Path.ofReal names).text.isEmpty = false := by
    rw [← Bool.not_eq_true, String.isEmpty_iff, ← String.toList_inj, Path.toList_ofReal]
    simp
  unfold checkText
  rw [filled]
  split
  · simp
  · simp only [Bool.false_eq_true, if_false]
    split <;> simp

theorem checkText_ok_iff {text : String} : checkText text = .ok () ↔
    '\x00' ∉ text.toList ∧ text.isEmpty = false ∧ text.utf8ByteSize ≤ longestPath := by
  unfold checkText
  split
  · simp_all
  · split
    · simp_all
    · split
      · simp_all
      · simp_all

theorem checkText_append {front rest : String} (filled : front.isEmpty = false)
    (checked : checkText (front ++ rest) = .ok ()) : checkText front = .ok () := by
  rw [checkText_ok_iff, String.toList_append, String.utf8ByteSize_append] at checked
  obtain ⟨plain, -, short⟩ := checked
  exact checkText_ok_iff.mpr ⟨fun inside => plain (List.mem_append_left _ inside), filled, by omega⟩

theorem checkText_front (filled : names ≠ [])
    (checked : checkText (Path.ofReal (names ++ more)).text = .ok ()) :
    checkText (Path.ofReal names).text = .ok () := by
  by_cases alone : more = []
  · rwa [alone, List.append_nil] at checked
  · have longer : (Path.ofReal (names ++ more)).text = (Path.ofReal names).text ++
        String.ofList ('/' :: Text.glue '/' (more.map String.toList)) := by
      rw [← String.toList_inj, Path.ofReal_append filled alone, String.toList_append,
        String.toList_ofList]
    rw [longer] at checked
    refine checkText_append ?_ checked
    rw [← Bool.not_eq_true, String.isEmpty_iff, ← String.toList_inj, Path.toList_ofReal]
    simp

theorem locate_ok_iff (segments : ∀ name ∈ names, IsSegment name) :
    disk.locate follow (Path.ofReal names) = .ok place ↔
      checkText (Path.ofReal names).text = .ok () ∧
        Walks disk.tree follow linkBudget [] names place := by
  rw [locate, Path.stepsOf_ofReal segments, Path.startOf_ofReal, bind_eq_ok_iff]
  constructor
  · rintro ⟨⟨⟩, checked, walks⟩
    exact ⟨checked, walks_of_walk walks⟩
  · rintro ⟨checked, walks⟩
    exact ⟨(), checked, walk_of_walks walks⟩

theorem stat_ok_iff {path : Path} {spot : RealPath} {node : Node} :
    disk.stat path = .ok (spot, node) ↔ disk.locate true path = .ok (.present spot node) := by
  unfold stat
  rcases disk.locate true path with _ | _ | _ <;> simp [bind, Except.bind]

theorem stat_ofReal_iff (segments : ∀ name ∈ names, IsSegment name) {spot : RealPath}
    {node : Node} : disk.stat (Path.ofReal names) = .ok (spot, node) ↔
      checkText (Path.ofReal names).text = .ok () ∧
        Walks disk.tree true linkBudget [] names (.present spot node) := by
  rw [stat_ok_iff, locate_ok_iff segments]

theorem names_of_pieces (segments : ∀ name ∈ names ++ [last], IsSegment name) :
    ((Text.pieces '/' (Path.ofReal (names ++ [last])).text.toList).filter
      (fun piece => !piece.isEmpty)).reverse =
      last.toList :: (names.map String.toList).reverse := by
  rw [Path.pieces_ofReal (by simp) segments, List.filter_cons_of_neg (by simp),
    List.filter_eq_self.mpr ?_]
  · simp
  · intro part member
    obtain ⟨name, listed, rfl⟩ := List.mem_map.mp member
    simpa using (segments name listed).filled

theorem locateLast_eq (segments : ∀ name ∈ names ++ [last], IsSegment name) :
    disk.locateLast (Path.ofReal (names ++ [last])) = (do
      checkText (Path.ofReal (names ++ [last])).text
      match ← walk disk.tree true linkBudget [] names with
      | .present directory .directory => .ok (some ⟨directory, last, false⟩)
      | .present _ _ => .error .notDirectory
      | .vacant _ _ => .error .notFound) := by
  have slash : ((Path.ofReal (names ++ [last])).text.toList.getLast? == some '/') = false := by
    simpa using Path.getLast?_ofReal (by simp) segments
  rw [locateLast]
  dsimp only
  rw [names_of_pieces segments, Path.startOf_ofReal]
  rcases checkText (Path.ofReal (names ++ [last])).text with cause | ⟨⟩
  · rfl
  · rcases walked : walk disk.tree true linkBudget [] names with
      cause | ⟨place, node⟩ | ⟨place, name⟩
    · simp [bind, Except.bind, walked]
    · cases node <;> simp [bind, Except.bind, slash, walked]
    · simp [bind, Except.bind, walked]

theorem locateLast_ok (segments : ∀ name ∈ names ++ [last], IsSegment name) {found : Option Last}
    (located : disk.locateLast (Path.ofReal (names ++ [last])) = .ok found) :
    ∃ directory, found = some ⟨directory, last, false⟩ ∧ LeadsTo disk.tree names directory ∧
      checkText (Path.ofReal (names ++ [last])).text = .ok () := by
  rw [locateLast_eq segments] at located
  obtain ⟨⟨⟩, checked, located⟩ := bind_eq_ok_iff.mp located
  obtain ⟨place, walked, ends⟩ := bind_eq_ok_iff.mp located
  split at ends
  · rename_i directory
    cases ends
    exact ⟨directory, rfl, walks_of_walk walked, checked⟩
  · cases ends
  · cases ends

theorem locateLast_of_leadsTo (segments : ∀ name ∈ names ++ [last], IsSegment name)
    {directory : RealPath} (leads : LeadsTo disk.tree names directory)
    (checked : checkText (Path.ofReal (names ++ [last])).text = .ok ()) :
    disk.locateLast (Path.ofReal (names ++ [last])) = .ok (some ⟨directory, last, false⟩) := by
  rw [locateLast_eq segments, checked, walk_of_walks leads]
  rfl

theorem isDirectory_iff (segments : ∀ name ∈ names, IsSegment name) :
    disk.isDirectory (Path.ofReal names) = true ↔
      checkText (Path.ofReal names).text = .ok () ∧ ∃ directory,
        LeadsTo disk.tree names directory := by
  have atOnce : disk.isDirectory (Path.ofReal names) = true ↔
      ∃ directory, disk.locate true (Path.ofReal names) = .ok (.present directory .directory) := by
    unfold isDirectory stat
    rcases disk.locate true (Path.ofReal names) with cause | ⟨place, node⟩ | ⟨place, name⟩
    · simp [bind, Except.bind]
    · cases node <;> simp [bind, Except.bind]
    · simp [bind, Except.bind]
  rw [atOnce]
  constructor
  · rintro ⟨directory, located⟩
    obtain ⟨checked, walks⟩ := (locate_ok_iff segments).mp located
    exact ⟨checked, directory, walks⟩
  · rintro ⟨checked, directory, walks⟩
    exact ⟨directory, (locate_ok_iff segments).mpr ⟨checked, walks⟩⟩

end Locating

end Disk

end PlatformBundle
