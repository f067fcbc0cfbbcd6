import PlatformBundle.Proofs.MissingBase
import PlatformBundle.Proofs.PathSteps
/-!
Ways on which no link is met, from a directory that is there. What making directories and writing a
file come to on such a way can be told from what stands on it: work goes through as long as no file
is in the way, and it leaves the directories of the way and the file at its end.
-/

namespace PlatformBundle

open FileTree

abbrev View := RealPath → Option Node

namespace View

/-- A place and those above it are directories, unless something else stands there. -/
def withDirs (view : View) (top : RealPath) : View :=
  fun place => (view place).or (if place <+: top then some .directory else none)

def executable : Option Node → Bool
  | some (.file _ executable) => executable
  | _ => false

def withFile (view : View) (top : RealPath) (content : ByteArray) : View :=
  fun place =>
    if place = top then some (.file content (executable (view top)))
    else view.withDirs top place

def Passable (view : View) (place : RealPath) : Prop :=
  view place = none ∨ view place = some .directory

def Writable (view : View) (place : RealPath) : Prop :=
  ∀ node, view place = some node → ∃ content executable, node = .file content executable

variable {view : View} {top place : RealPath}

theorem withDirs_outside (outside : ¬ place <+: top) : view.withDirs top place = view place := by
  rw [withDirs, if_neg outside, Option.or_none]

theorem withDirs_below (name : String) :
    view.withDirs top (top ++ [name]) = view (top ++ [name]) := by
  refine withDirs_outside (fun higher => ?_)
  have longer := higher.length_le
  rw [List.length_append, List.length_singleton] at longer
  omega

theorem withDirs_above (above : place <+: top) :
    view.withDirs top place = (view place).or (some .directory) := by
  rw [withDirs, if_pos above]

theorem withDirs_taken {node : Node} (taken : view place = some node) :
    view.withDirs top place = some node := by
  rw [withDirs, taken, Option.some_or]

theorem withDirs_of_stands (stands : ∀ above, above <+: top → view above = some .directory) :
    view.withDirs top = view := by
  funext place
  by_cases above : place <+: top
  · rw [withDirs_above above, stands place above, Option.some_or]
  · exact withDirs_outside above

end View

namespace Disk

variable {disk left : Disk} {names way : List String} {last : String} {place : RealPath}

section Leading

variable {tree : FileTree}

theorem entries_of_proper (proper : ∀ name ∈ names ++ way, IsProper name)
    (short : ∀ name ∈ way, name.utf8ByteSize ≤ longestName) : ∀ name ∈ way, IsEntryName name := by
  intro name listed
  have own := proper name (List.mem_append_right _ listed)
  exact ⟨own.notHere, own.notUp, short name listed⟩

theorem LeadsTo.descend (leads : LeadsTo tree names place) (grounded : tree.Grounded)
    (entries : ∀ name ∈ way, IsEntryName name)
    (stands : tree.get? (place ++ way) = some .directory) :
    LeadsTo tree (names ++ way) (place ++ way) := by
  induction way using List.reverseRecOn with
  | nil => simpa using leads
  | append_singleton front last ih =>
      rw [← List.append_assoc] at stands
      have above := grounded (place ++ front) last (by rw [stands]; simp)
      have onward := ih (fun name listed => entries name (List.mem_append_left _ listed)) above
      have inside := onward.enter (entries last (by simp)) stands
      simpa only [List.append_assoc] using inside

def Unlinked (tree : FileTree) (place : RealPath) (way : List String) : Prop :=
  ∀ front target, front <+: way → tree.get? (place ++ front) ≠ some (.link target)

theorem Unlinked.front {more : List String} (clear : Unlinked tree place (way ++ more)) :
    Unlinked tree place way :=
  fun front target inside => clear front target (inside.trans (List.prefix_append _ _))

theorem Unlinked.leads_eq (clear : Unlinked tree place way) (leads : LeadsTo tree names place)
    (proper : ∀ name ∈ way, IsProper name) {found : RealPath}
    (onward : LeadsTo tree (names ++ way) found) : found = place ++ way := by
  by_cases filled : way = []
  · subst filled
    rw [List.append_nil] at onward ⊢
    exact onward.unique leads
  · exact leads.spot_eq onward filled proper
      (fun front target _ inside => clear front target inside)

-- A name that is too long would end the walk where it is looked up.
theorem short_of_leads
    (proper : ∀ name ∈ way, IsProper name) {found : RealPath}
    (onward : LeadsTo tree (names ++ way) found) :
    ∀ name ∈ way, name.utf8ByteSize ≤ longestName := by
  intro name listed
  obtain ⟨front, rest, rfl⟩ := List.append_of_mem listed
  rw [← List.append_assoc] at onward
  obtain ⟨middle, leadsFront⟩ := LeadsTo.front onward (List.cons_ne_nil name rest)
  obtain ⟨left, same⟩ := LeadsTo.onward leadsFront
  have walked := walk_of_walks onward
  have own := proper name listed
  by_contra long
  rw [same true _ (List.cons_ne_nil name rest),
    walk_longName _ _ _ _ own.notHere own.notUp (by omega)] at walked
  cases walked

end Leading

section Directories

variable (proper : ∀ name ∈ names ++ [last], IsProper name)
  (checked : checkText (Path.ofReal (names ++ [last])).text = .ok ())
include proper checked

theorem makeDirIfMissing_there (there : LeadsTo disk.tree (names ++ [last]) place) :
    disk.makeDirIfMissing (Path.ofReal (names ++ [last])) = (.ok (), disk) :=
  makeDirIfMissing_of_isDirectory (Path.isAbsolute_ofReal _)
    ((isDirectory_iff (segments_of_proper proper)).mpr ⟨checked, place, there⟩)

theorem createDirs_there (there : LeadsTo disk.tree (names ++ [last]) place) :
    disk.createDirs (Path.ofReal (names ++ [last])) = (.ok (), disk) :=
  makeFrom_there (Path.isAbsolute_ofReal _)
    ((isDirectory_iff (segments_of_proper proper)).mpr ⟨checked, place, there⟩) _

end Directories

section Making

variable {tree made : FileTree}

theorem makeDirIfMissing_next (proper : ∀ name ∈ names ++ [last], IsProper name)
    (checked : checkText (Path.ofReal (names ++ [last])).text = .ok ())
    (short : last.utf8ByteSize ≤ longestName)
    (same : tree.get? = View.withDirs disk.tree.get? place) (leads : LeadsTo tree names place)
    (free : tree.get? (place ++ [last]) = none) :
    ∃ made, (disk.withTree tree).makeDirIfMissing (Path.ofReal (names ++ [last])) =
        (.ok (), disk.withTree made) ∧
      made.get? = View.withDirs disk.tree.get? (place ++ [last]) := by
  refine ⟨tree.put (place ++ [last]) .directory, ?_, ?_⟩
  · rw [makeDirIfMissing_free proper checked leads free, if_neg (by omega)]
    rfl
  · funext other
    rw [get?_put _ _ _ _ (by simp)]
    split
    · rename_i here
      rw [same] at free
      rw [here, View.withDirs_above List.prefix_rfl, (Option.or_eq_none_iff.mp free).1,
        Option.none_or]
    · rename_i elsewhere
      rw [same, View.withDirs, View.withDirs]
      simp only [List.prefix_concat_iff, elsewhere, false_or]

variable (leads : LeadsTo disk.tree names place) (grounded : disk.tree.Grounded)
include leads grounded

theorem stands_above {above : RealPath} (higher : above <+: place) :
    disk.tree.get? above = some .directory := by
  obtain ⟨rest, rfl⟩ := higher
  by_cases here : rest = []
  · simpa [here] using leads.stands grounded
  · exact grounded.above above rest here (by simp [leads.stands grounded])

theorem withDirs_place : View.withDirs disk.tree.get? place = disk.tree.get? :=
  View.withDirs_of_stands (fun _ higher => stands_above leads grounded higher)

theorem blocked_of_missing (clear : Unlinked disk.tree place way)
    (proper : ∀ name ∈ way, IsProper name)
    (missing : disk.tree.get? (place ++ way) ≠ some .directory) :
    Blocked disk.tree (names ++ way) := by
  intro found onward
  have here := clear.leads_eq leads proper onward
  exact missing (here ▸ onward.stands grounded)

theorem leads_of_made (entries : ∀ name ∈ way, IsEntryName name)
    (passable : View.Passable disk.tree.get? (place ++ way))
    (made : disk.createDirs (Path.ofReal (names ++ way)) = (.ok (), disk.withTree tree))
    (same : tree.get? = View.withDirs disk.tree.get? (place ++ way)) :
    LeadsTo tree (names ++ way) (place ++ way) := by
  have grown := createDirs_grown (fun _ => True) (Path.isAbsolute_ofReal _) grounded made
  refine (leads.grow grown.toGrows).descend grown.grounded entries ?_
  change tree.get? _ = _
  rw [same, View.withDirs_above List.prefix_rfl]
  rcases passable with free | directory
  · rw [free, Option.none_or]
  · rw [directory, Option.some_or]

-- The induction is from the end of the way: what is missing above the last name is made first.
theorem createDirs_open (proper : ∀ name ∈ names ++ way, IsProper name) (filled : way ≠ [])
    (checked : checkText (Path.ofReal (names ++ way)).text = .ok ())
    (short : ∀ name ∈ way, name.utf8ByteSize ≤ longestName)
    (passes : ∀ front, front <+: way → View.Passable disk.tree.get? (place ++ front)) :
    ∃ tree, disk.createDirs (Path.ofReal (names ++ way)) = (.ok (), disk.withTree tree) ∧
      tree.get? = View.withDirs disk.tree.get? (place ++ way) := by
  induction way using List.reverseRecOn with
  | nil => exact absurd rfl filled
  | append_singleton front last ih =>
      have entries := entries_of_proper proper short
      have entriesFront : ∀ name ∈ front, IsEntryName name :=
        fun name listed => entries name (List.mem_append_left _ listed)
      have passesFront : ∀ more, more <+: front → View.Passable disk.tree.get? (place ++ more) :=
        fun more inside => passes more (inside.trans (List.prefix_append _ _))
      have ends := passes (front ++ [last]) List.prefix_rfl
      rw [← List.append_assoc] at proper checked ends ⊢
      rw [← List.append_assoc]
      have properFront : ∀ name ∈ names ++ front, IsProper name :=
        fun name listed => proper name (List.mem_append_left _ listed)
      by_cases there : disk.tree.get? (place ++ front) = some .directory
      · have leadsFront := leads.descend grounded entriesFront there
        have same := (withDirs_place leadsFront grounded).symm
        rw [createDirs_of_leads proper leadsFront]
        rcases ends with free | taken
        · exact makeDirIfMissing_next proper checked (short last (by simp)) same leadsFront free
        · have leadsAll := leadsFront.enter (entries last (by simp)) taken
          exact ⟨disk.tree, makeDirIfMissing_there proper checked leadsAll,
            (withDirs_place leadsAll grounded).symm⟩
      · have filledFront : front ≠ [] := by
          rintro rfl
          rw [List.append_nil] at there
          exact there (leads.stands grounded)
        obtain ⟨tree, made, same⟩ := ih properFront filledFront
          (checkText_front (by simp [filledFront]) checked)
          (fun name listed => (entriesFront name listed).short) passesFront
        have blocked : Blocked disk.tree (names ++ front) := by
          refine blocked_of_missing leads grounded ?_
            (fun name listed => properFront name (List.mem_append_right _ listed)) there
          intro more target inside linked
          have passable := passesFront more inside
          simp [View.Passable, linked] at passable
        have free : tree.get? (place ++ front ++ [last]) = none := by
          rw [same, View.withDirs_below]
          by_contra stands
          exact there (grounded _ last stands)
        have leadsFront := leads_of_made leads grounded entriesFront
          (passesFront front List.prefix_rfl) made same
        rw [blocked.createDirs_eq proper checked,
          if_pos (blocked.obstacle_eq properFront made (Or.inl rfl)), made]
        exact makeDirIfMissing_next proper checked (short last (by simp)) same leadsFront free

theorem createDirs_way (proper : ∀ name ∈ names ++ way, IsProper name) (inside : names ≠ [])
    (checked : checkText (Path.ofReal (names ++ way)).text = .ok ())
    (short : ∀ name ∈ way, name.utf8ByteSize ≤ longestName)
    (passes : ∀ front, front <+: way → View.Passable disk.tree.get? (place ++ front)) :
    ∃ tree, disk.createDirs (Path.ofReal (names ++ way)) = (.ok (), disk.withTree tree) ∧
      tree.get? = View.withDirs disk.tree.get? (place ++ way) := by
  by_cases filled : way = []
  · subst filled
    obtain ⟨front, last, rfl⟩ := (List.eq_nil_or_concat names).resolve_left inside
    rw [List.append_nil, List.concat_eq_append] at *
    refine ⟨disk.tree, createDirs_there proper checked leads, ?_⟩
    rw [List.append_nil, withDirs_place leads grounded]
  · exact createDirs_open leads grounded proper filled checked short passes

/-- Directories are made on a way only if nothing else is on it. -/
theorem createDirs_passes (proper : ∀ name ∈ names ++ way, IsProper name) (filled : way ≠ [])
    (clear : Unlinked disk.tree place way)
    (made : disk.createDirs (Path.ofReal (names ++ way)) = (.ok (), left)) :
    checkText (Path.ofReal (names ++ way)).text = .ok () ∧
      (∀ name ∈ way, name.utf8ByteSize ≤ longestName) ∧
      ∀ front, front <+: way → View.Passable disk.tree.get? (place ++ front) := by
  obtain ⟨above, last, rfl⟩ := (List.eq_nil_or_concat way).resolve_left filled
  rw [List.concat_eq_append] at *
  have properWay : ∀ name ∈ above ++ [last], IsProper name :=
    fun name listed => proper name (List.mem_append_right _ listed)
  have checked : checkText (Path.ofReal (names ++ (above ++ [last]))).text = .ok () := by
    rw [← List.append_assoc] at proper made ⊢
    exact checkText_of_made proper made
  have reached : Grown (fun _ => True) disk.tree left.tree ∧
      Reached disk.tree left.tree (names ++ (above ++ [last])) := by
    rw [← List.append_assoc] at proper made ⊢
    obtain ⟨grown, ends, -⟩ := createDirs_reached (fun _ => True) proper grounded made
    exact ⟨grown, ends⟩
  obtain ⟨grown, found, onward, -⟩ := reached
  have clearLeft : Unlinked left.tree place (above ++ [last]) :=
    fun front target inside linked => clear front target inside (grown.link.mp linked)
  have here := clearLeft.leads_eq (leads.grow grown.toGrows) properWay onward
  refine ⟨checked, short_of_leads properWay onward, fun front inside => ?_⟩
  have stands : left.tree.get? (place ++ front) = some .directory := by
    refine stands_above onward grown.grounded ?_
    rw [here]
    exact (List.prefix_append_right_inj place).mpr inside
  rcases before : disk.tree.get? (place ++ front) with _ | node
  · exact Or.inl before
  · rw [grown.kept trivial before] at stands
    exact Or.inr (before.trans stands)

end Making

section Writing

variable {content : ByteArray} (proper : ∀ name ∈ names ++ [last], IsProper name)
  (leads : LeadsTo disk.tree names place)
include proper leads

theorem locate_last (checked : checkText (Path.ofReal (names ++ [last])).text = .ok ()) :
    ∃ left, ∀ follow, disk.locate follow (Path.ofReal (names ++ [last])) =
      walk disk.tree follow left place [last] := by
  obtain ⟨left, same⟩ := leads.onward
  refine ⟨left, fun follow => ?_⟩
  rw [locate, checked, Path.stepsOf_ofReal (segments_of_proper proper), Path.startOf_ofReal]
  exact same follow _ (List.cons_ne_nil last [])

theorem write_open (content : ByteArray)
    (checked : checkText (Path.ofReal (names ++ [last])).text = .ok ())
    (short : last.utf8ByteSize ≤ longestName)
    (writable : View.Writable disk.tree.get? (place ++ [last])) :
    disk.write (Path.ofReal (names ++ [last])) content =
      (.ok (), disk.withTree (disk.tree.put (place ++ [last])
        (.file content (View.executable (disk.tree.get? (place ++ [last])))))) := by
  have own := proper last (by simp)
  have notDot : isDotName last = false := by simp [isDotName, own.notHere, own.notUp]
  obtain ⟨left, located⟩ := locate_last proper leads checked
  rw [write, locateLast_of_leadsTo (segments_of_proper proper) leads checked, located,
    walk_name _ _ _ _ ⟨own.notHere, own.notUp, short⟩, walkName]
  rcases found : disk.tree.get? (place ++ [last]) with _ | node
  · simp [notDot, View.executable]
  · obtain ⟨old, executable, rfl⟩ := writable node found
    simp [notDot, View.executable]

theorem write_writable (noLink : ∀ target, disk.tree.get? (place ++ [last]) ≠ some (.link target))
    (wrote : disk.write (Path.ofReal (names ++ [last])) content = (.ok (), left)) :
    checkText (Path.ofReal (names ++ [last])).text = .ok () ∧
      last.utf8ByteSize ≤ longestName ∧ View.Writable disk.tree.get? (place ++ [last]) := by
  have own := proper last (by simp)
  obtain ⟨found, executable, takes, -⟩ := write_ok_iff.mp wrote
  obtain ⟨budget, same⟩ := locate_last proper leads takes.checked
  have walked := takes.located
  rw [same true] at walked
  have short : last.utf8ByteSize ≤ longestName := by
    by_contra long
    rw [walk_longName _ _ _ _ own.notHere own.notUp (by omega)] at walked
    cases walked
  refine ⟨takes.checked, short, fun node there => ?_⟩
  rw [walk_name _ _ _ _ ⟨own.notHere, own.notUp, short⟩, walkName, there] at walked
  cases node with
  | directory =>
      rw [walk_nil] at walked
      cases walked
      exact absurd rfl (takes.fillable.ne_directory _)
  | file old executable => exact ⟨old, executable, rfl⟩
  | link target => exact absurd there (noLink target)

end Writing

end Disk

namespace Files

open Disk

variable {disk left : Disk} {names way : List String} {last text : String} {place : RealPath}

section Writing

variable (leads : LeadsTo disk.tree names place) (grounded : disk.tree.Grounded)
include leads grounded

theorem write_inside (inside : names ≠ []) (proper : ∀ name ∈ names ++ [last], IsProper name)
    (noLink : ∀ target, disk.tree.get? (place ++ [last]) ≠ some (.link target))
    (wrote : (write (Path.ofReal (names ++ [last])) text).onDisk disk = (.ok (), left)) :
    left.tree.get? = View.withFile disk.tree.get? (place ++ [last]) text.toUTF8 := by
  obtain ⟨made, dirs, ends⟩ := (write_ok_iff (Path.parent_ofReal proper)).mp wrote
  have there : made = disk := by
    obtain ⟨front, first, rfl⟩ := (List.eq_nil_or_concat names).resolve_left inside
    rw [List.concat_eq_append] at *
    have properFront : ∀ name ∈ front ++ [first], IsProper name :=
      fun name listed => proper name (List.mem_append_left _ listed)
    rw [createDirs_there properFront (checkText_of_made properFront dirs) leads] at dirs
    cases dirs
    rfl
  subst there
  obtain ⟨checked, short, writable⟩ := write_writable proper leads noLink ends
  rw [Disk.write_open proper leads _ checked short writable] at ends
  cases ends
  funext other
  change (made.tree.put _ _).get? other = _
  rw [get?_put _ _ _ _ (by simp), View.withFile]
  split
  · rfl
  · rename_i elsewhere
    have kept := congrFun (withDirs_place leads grounded) other
    rw [← kept, View.withDirs, View.withDirs]
    simp only [List.prefix_concat_iff, elsewhere, false_or]

variable (proper : ∀ name ∈ names ++ (way ++ [last]), IsProper name)
include proper

/-- A file is written at the end of a way that nothing but directories is on. -/
theorem write_open (inside : names ≠ [])
    (checked : checkText (Path.ofReal (names ++ (way ++ [last]))).text = .ok ())
    (short : ∀ name ∈ way ++ [last], name.utf8ByteSize ≤ longestName)
    (passes : ∀ front, front <+: way → View.Passable disk.tree.get? (place ++ front))
    (writable : View.Writable disk.tree.get? (place ++ (way ++ [last]))) :
    ∃ tree, (write (Path.ofReal (names ++ (way ++ [last]))) text).onDisk disk =
        (.ok (), disk.withTree tree) ∧
      tree.get? = View.withFile disk.tree.get? (place ++ (way ++ [last])) text.toUTF8 := by
  have entries : ∀ name ∈ way, IsEntryName name :=
    fun name listed => entries_of_proper proper short name (List.mem_append_left _ listed)
  rw [← List.append_assoc] at proper checked writable ⊢
  rw [← List.append_assoc]
  have properWay : ∀ name ∈ names ++ way, IsProper name :=
    fun name listed => proper name (List.mem_append_left _ listed)
  obtain ⟨tree, made, same⟩ := createDirs_way leads grounded properWay inside
    (checkText_front (by simp [inside]) checked)
    (fun name listed => (entries name listed).short) passes
  have leadsWay := leads_of_made leads grounded entries (passes way List.prefix_rfl) made same
  have kept : tree.get? (place ++ way ++ [last]) = disk.tree.get? (place ++ way ++ [last]) := by
    rw [same, View.withDirs_below]
  have free : View.Writable (disk.withTree tree).tree.get? (place ++ way ++ [last]) :=
    fun node found => writable node (kept.symm.trans found)
  have wrote := Disk.write_open proper leadsWay text.toUTF8 checked (short last (by simp)) free
  refine ⟨_, (write_ok_iff (Path.parent_ofReal proper)).mpr ⟨_, made, wrote⟩, ?_⟩
  funext other
  change (tree.put _ (.file _ (View.executable (tree.get? _)))).get? other = _
  rw [get?_put _ _ _ _ (by simp), kept, View.withFile]
  split
  · rfl
  · rename_i elsewhere
    rw [same, View.withDirs, View.withDirs]
    simp only [List.prefix_concat_iff, elsewhere, false_or]

theorem write_passes (filled : way ≠ []) (clear : Unlinked disk.tree place (way ++ [last]))
    (wrote : (write (Path.ofReal (names ++ (way ++ [last]))) text).onDisk disk = (.ok (), left)) :
    checkText (Path.ofReal (names ++ (way ++ [last]))).text = .ok () ∧
      (∀ name ∈ way ++ [last], name.utf8ByteSize ≤ longestName) ∧
      (∀ front, front <+: way → View.Passable disk.tree.get? (place ++ front)) ∧
      View.Writable disk.tree.get? (place ++ (way ++ [last])) := by
  rw [← List.append_assoc] at proper wrote ⊢
  have properWay : ∀ name ∈ names ++ way, IsProper name :=
    fun name listed => proper name (List.mem_append_left _ listed)
  obtain ⟨made, dirs, ends⟩ := (write_ok_iff (Path.parent_ofReal proper)).mp wrote
  obtain ⟨checkedWay, shortWay, passes⟩ :=
    createDirs_passes leads grounded properWay filled clear.front dirs
  have entries := entries_of_proper properWay shortWay
  obtain ⟨tree, again, same⟩ :=
    createDirs_open leads grounded properWay filled checkedWay shortWay passes
  obtain rfl := (Prod.mk.injEq .. ▸ dirs.symm.trans again).2
  have leadsWay := leads_of_made leads grounded entries (passes way List.prefix_rfl) dirs same
  have kept : tree.get? (place ++ way ++ [last]) = disk.tree.get? (place ++ way ++ [last]) := by
    rw [same, View.withDirs_below]
  have noLink : ∀ target,
      (disk.withTree tree).tree.get? (place ++ way ++ [last]) ≠ some (.link target) := by
    intro target linked
    refine clear (way ++ [last]) target List.prefix_rfl ?_
    rw [← List.append_assoc]
    exact kept.symm.trans linked
  obtain ⟨checked, short, writable⟩ := write_writable proper leadsWay noLink ends
  refine ⟨checked, ?_, passes, ?_⟩
  · intro name listed
    rcases List.mem_append.mp listed with above | own
    · exact shortWay name above
    · rwa [List.mem_singleton.mp own]
  · rw [← List.append_assoc]
    exact fun node found => writable node (kept.trans found)

end Writing

end Files

end PlatformBundle
