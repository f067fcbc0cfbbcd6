import PlatformBundle.Proofs.DiskOutcomes
import PlatformBundle.Proofs.FileSteps
import PlatformBundle.Proofs.Locating
/-!
What the operations of a disk do at a path that is spelled out from the root. Directories are made
where nothing stood, a file is written at the place that its path leads to, and what is removed is
no longer there.
-/

namespace PlatformBundle

open FileTree

structure FileTree.Grown (spared : RealPath → Prop) (before after : FileTree) : Prop
    extends Grows spared before after where
  grounded : after.Grounded

namespace FileTree.Grown

variable {spared : RealPath → Prop} {before middle after : FileTree}

theorem refl (spared : RealPath → Prop) {tree : FileTree} (grounded : tree.Grounded) :
    Grown spared tree tree := ⟨.refl spared tree, grounded⟩

theorem trans (first : Grown spared before middle) (second : Grown spared middle after) :
    Grown spared before after := ⟨first.toGrows.trans second.toGrows, second.grounded⟩

theorem weaken {fewer : RealPath → Prop} (grown : Grown spared before after)
    (implies : ∀ place, fewer place → spared place) : Grown fewer before after :=
  ⟨grown.toGrows.weaken implies, grown.grounded⟩

end FileTree.Grown

namespace Disk

variable {disk left : Disk} {names : List String} {last : String} {spared : RealPath → Prop}

theorem makeDir_ok (segments : ∀ name ∈ names ++ [last], IsSegment name)
    (made : disk.makeDir (Path.ofReal (names ++ [last])) = (.ok (), left)) :
    ∃ directory, LeadsTo disk.tree names directory ∧ IsEntryName last ∧
      disk.tree.get? (directory ++ [last]) = none ∧
      left = disk.withTree (disk.tree.put (directory ++ [last]) .directory) := by
  obtain ⟨final, takes, rfl⟩ := makeDir_ok_iff.mp made
  obtain ⟨directory, same, leads, -⟩ := locateLast_ok segments takes.located
  cases same
  exact ⟨directory, leads, takes.entry, takes.free, rfl⟩

theorem makeDirIfMissing_leads (segments : ∀ name ∈ names ++ [last], IsSegment name)
    (grounded : disk.tree.Grounded)
    (made : disk.makeDirIfMissing (Path.ofReal (names ++ [last])) = (.ok (), left)) :
    Grown spared disk.tree left.tree ∧
      ∃ directory place, LeadsTo disk.tree names directory ∧
        LeadsTo left.tree (names ++ [last]) place ∧
        (LeadsTo disk.tree (names ++ [last]) place ∨
          place = directory ++ [last] ∧ disk.tree.Vacant place) := by
  rcases makeDirIfMissing_ok made with new | ⟨there, rfl⟩
  · obtain ⟨directory, leads, entry, free, rfl⟩ := makeDir_ok segments new
    have grown : Grown spared disk.tree (disk.tree.put (directory ++ [last]) .directory) :=
      ⟨.put_directory (by simp) free,
        grounded.put (leads.stands grounded) (Or.inl rfl)⟩
    refine ⟨grown, directory, directory ++ [last], leads, ?_, Or.inr ⟨rfl, grounded.vacant free⟩⟩
    exact (leads.grow grown.toGrows).enter entry (by simp [get?_put])
  · obtain ⟨-, place, leads⟩ := (isDirectory_iff segments).mp there
    obtain ⟨directory, front⟩ := leads.front (List.cons_ne_nil last [])
    exact ⟨.refl spared grounded, directory, place, front, leads, Or.inl leads⟩

-- A directory above that is there leaves no reason to look for one further up.
theorem makeDirIfMissing_ne_notFound (proper : ∀ name ∈ names ++ [last], IsProper name)
    {directory : RealPath} (leads : LeadsTo disk.tree names directory) :
    disk.makeDirIfMissing (Path.ofReal (names ++ [last])) ≠ (.error .notFound, left) := by
  have segments := segments_of_proper proper
  have outcome : (disk.makeDir (Path.ofReal (names ++ [last]))).1 ≠ .error .notFound := by
    cases checked : checkText (Path.ofReal (names ++ [last])).text with
    | error cause =>
        have differ : cause ≠ .notFound := by
          rintro rfl
          exact checkText_ofReal_ne_notFound _ checked
        simp [makeDir, locateLast, checked, bind, Except.bind, differ]
    | ok =>
        simp only [makeDir, locateLast_of_leadsTo segments leads checked]
        split
        · simp
        · split
          · simp
          · split <;> simp
  intro missing
  unfold makeDirIfMissing at missing
  split at missing
  · cases missing
  · split at missing <;> cases missing
  · rename_i failed
    cases missing
    exact outcome (by rw [failed])

/-- A path leads to a directory that was there, or to one made where nothing stood. -/
def Reached (before after : FileTree) (names : List String) : Prop :=
  ∃ place, LeadsTo after names place ∧ (LeadsTo before names place ∨ before.Vacant place)

theorem Reached.of_leadsTo {before after : FileTree} {place : RealPath}
    (grows : Grows spared before after) (leads : LeadsTo before names place) :
    Reached before after names :=
  ⟨place, leads.grow grows, Or.inl leads⟩

theorem makeDirIfMissing_below {before : FileTree} {directory : RealPath}
    (proper : ∀ name ∈ names ++ [last], IsProper name) (grown : Grown spared before disk.tree)
    (leads : LeadsTo disk.tree names directory) (new : before.Vacant directory)
    (made : disk.makeDirIfMissing (Path.ofReal (names ++ [last])) = (.ok (), left)) :
    Grown spared disk.tree left.tree ∧
      LeadsTo left.tree (names ++ [last]) (directory ++ [last]) ∧
      before.Vacant (directory ++ [last]) := by
  obtain ⟨onward, other, place, leadsOther, ends, oldOrNew⟩ :=
    makeDirIfMissing_leads (segments_of_proper proper) grown.grounded made
  obtain rfl := leadsOther.unique leads
  have clear : disk.tree.Linkless (other ++ [last]) := (grown.linkless new.linkless).below [last]
  have below : place = other ++ [last] := by
    rcases oldOrNew with old | ⟨same, -⟩
    · exact leads.spot_of_linkless old
        (fun name listed => proper name (List.mem_append_right _ listed)) clear
    · exact same
  refine ⟨onward, below ▸ ends, fun rest => ?_⟩
  rw [List.append_assoc]
  exact new ([last] ++ rest)

theorem makeFrom_reached (spared : RealPath → Prop) {up : List String}
    (proper : ∀ name ∈ up, IsProper name) (grounded : disk.tree.Grounded)
    (made : disk.makeFrom (Path.upwards up) = (.ok (), left)) :
    Grown spared disk.tree left.tree ∧ Reached disk.tree left.tree up.reverse ∧
      Reached disk.tree left.tree up.tail.reverse := by
  induction up generalizing left with
  | nil =>
      cases made
      have root : Reached disk.tree disk.tree [] := ⟨[], .done, Or.inl .done⟩
      exact ⟨.refl spared grounded, root, root⟩
  | cons last up ih =>
      have properForward : ∀ name ∈ up.reverse ++ [last], IsProper name := by
        intro name listed
        exact proper name (by simpa [or_comm] using listed)
      rw [Path.upwards, List.reverse_cons] at made
      rw [List.reverse_cons, List.tail_cons]
      rcases makeFrom_cons_ok made with atOnce | ⟨missing, middle, makeAbove, make⟩
      · obtain ⟨grown, directory, place, leads, ends, oldOrNew⟩ :=
          makeDirIfMissing_leads (segments_of_proper properForward) grounded atOnce
        refine ⟨grown, ⟨place, ends, ?_⟩, .of_leadsTo grown.toGrows leads⟩
        rcases oldOrNew with old | ⟨-, new⟩
        · exact Or.inl old
        · exact Or.inr new
      · obtain ⟨grownAbove, ⟨top, leadsTop, either⟩, -⟩ :=
          ih (fun name later => proper name (List.mem_cons_of_mem _ later)) makeAbove
        have new : disk.tree.Vacant top := by
          rcases either with old | new
          · exact absurd missing (makeDirIfMissing_ne_notFound properForward old)
          · exact new
        obtain ⟨grown, ends, newPlace⟩ :=
          makeDirIfMissing_below properForward grownAbove leadsTop new make
        exact ⟨grownAbove.trans grown, ⟨_, ends, Or.inr newPlace⟩,
          ⟨top, leadsTop.grow grown.toGrows, Or.inr new⟩⟩

theorem createDirs_reached (spared : RealPath → Prop)
    (proper : ∀ name ∈ names ++ [last], IsProper name) (grounded : disk.tree.Grounded)
    (made : disk.createDirs (Path.ofReal (names ++ [last])) = (.ok (), left)) :
    Grown spared disk.tree left.tree ∧ Reached disk.tree left.tree (names ++ [last]) ∧
      Reached disk.tree left.tree names := by
  have backwards : names ++ [last] = (last :: names.reverse).reverse := by simp
  have properBack : ∀ name ∈ last :: names.reverse, IsProper name := by
    intro name listed
    exact proper name (by simpa [or_comm] using listed)
  rw [createDirs, backwards, Path.ancestors_ofReal _ properBack] at made
  have reached := makeFrom_reached spared properBack grounded made
  rwa [← backwards, List.tail_cons, List.reverse_reverse] at reached

theorem checkText_of_makeDirIfMissing (segments : ∀ name ∈ names ++ [last], IsSegment name)
    (made : disk.makeDirIfMissing (Path.ofReal (names ++ [last])) = (.ok (), left)) :
    checkText (Path.ofReal (names ++ [last])).text = .ok () := by
  rcases makeDirIfMissing_ok made with new | ⟨there, -⟩
  · obtain ⟨final, takes, -⟩ := makeDir_ok_iff.mp new
    exact takes.checked
  · exact ((isDirectory_iff segments).mp there).1

theorem checkText_of_createDirs (proper : ∀ name ∈ names ++ [last], IsProper name)
    (made : disk.createDirs (Path.ofReal (names ++ [last])) = (.ok (), left)) :
    checkText (Path.ofReal (names ++ [last])).text = .ok () := by
  have segments := segments_of_proper proper
  have backwards : names ++ [last] = (last :: names.reverse).reverse := by simp
  have properBack : ∀ name ∈ last :: names.reverse, IsProper name := by
    intro name listed
    exact proper name (by simpa [or_comm] using listed)
  rw [createDirs, backwards, Path.ancestors_ofReal _ properBack, Path.upwards,
    ← backwards] at made
  rcases makeFrom_cons_ok made with atOnce | ⟨-, middle, -, later⟩
  · exact checkText_of_makeDirIfMissing segments atOnce
  · exact checkText_of_makeDirIfMissing segments later

structure Written (before after : FileTree) (names : List String) (content : ByteArray)
    (spot : RealPath) : Prop where
  found : ∃ place, Walks before true linkBudget [] names place ∧ place.spot = spot
  grown : Grown (fun place => place ≠ spot) before after
  stands : ∃ executable, Walks after true linkBudget [] names
    (.present spot (.file content executable))

theorem Place.Fillable.grown {place : Place} {executable : Bool} {tree : FileTree}
    (fillable : place.Fillable executable) (stands : place.Stands tree) (grounded : tree.Grounded)
    (content : ByteArray) : Grown (fun other => other ≠ place.spot) tree
      (tree.put place.spot (.file content executable)) := by
  have notDirectory := fillable.not_directory stands
  refine ⟨.put_file (fillable.inside stands) notDirectory (fillable.not_link stands) (by simp), ?_⟩
  obtain ⟨front, last, ends, above⟩ := fillable.above stands grounded
  rw [ends] at notDirectory ⊢
  exact grounded.put above (Or.inr notDirectory)

theorem written_put {place : Place} {content : ByteArray} {executable : Bool} {tree : FileTree}
    (grounded : tree.Grounded) (walks : Walks tree true linkBudget [] names place)
    (fillable : place.Fillable executable) :
    Written tree (tree.put place.spot (.file content executable)) names content place.spot := by
  have stands := walks.stands grounded tree.get?_root
  have grown := fillable.grown stands grounded content
  refine ⟨⟨place, walks, rfl⟩, grown, executable, ?_⟩
  refine walks.fill grown.toGrows ?_ fillable.ne_directory
  rw [get?_put _ _ _ _ (fillable.inside stands), if_pos rfl]

theorem write_written (segments : ∀ name ∈ names, IsSegment name) (grounded : disk.tree.Grounded)
    {content : ByteArray} (wrote : disk.write (Path.ofReal names) content = (.ok (), left)) :
    checkText (Path.ofReal names).text = .ok () ∧
      ∃ spot, Written disk.tree left.tree names content spot := by
  obtain ⟨found, executable, takes, rfl⟩ := write_ok_iff.mp wrote
  obtain ⟨checked, walks⟩ := (locate_ok_iff segments).mp takes.located
  exact ⟨checked, found.spot, written_put grounded walks takes.fillable⟩

theorem readText_iff_stat {path : Path} {text : String} :
    disk.readText path = .ok text ↔ ∃ spot content executable,
      disk.stat path = .ok (spot, .file content executable) ∧
        String.fromUTF8? content = some text := by
  unfold readText read
  rcases disk.stat path with cause | ⟨place, node⟩
  · simp [bind, Except.bind]
  · cases node with
    | directory => simp [bind, Except.bind]
    | link target => simp [bind, Except.bind]
    | file content executable =>
        simp only [bind, Except.bind]
        constructor
        · intro read
          cases decoded : String.fromUTF8? content with
          | none => simp [decoded] at read
          | some other =>
              rw [decoded] at read
              cases read
              exact ⟨place, content, executable, rfl, decoded⟩
        · rintro ⟨_, _, _, ⟨⟩, decoded⟩
          rw [decoded]

theorem readText_ok_iff (segments : ∀ name ∈ names, IsSegment name) {text : String} :
    disk.readText (Path.ofReal names) = .ok text ↔
      checkText (Path.ofReal names).text = .ok () ∧ ∃ spot content executable,
        Walks disk.tree true linkBudget [] names (.present spot (.file content executable)) ∧
        String.fromUTF8? content = some text := by
  rw [readText_iff_stat]
  constructor
  · rintro ⟨spot, content, executable, found, decoded⟩
    obtain ⟨checked, walks⟩ := (stat_ofReal_iff segments).mp found
    exact ⟨checked, spot, content, executable, walks, decoded⟩
  · rintro ⟨checked, spot, content, executable, walks, decoded⟩
    exact ⟨spot, content, executable, (stat_ofReal_iff segments).mpr ⟨checked, walks⟩, decoded⟩

/-- A name is gone from a directory: nothing else was added, and nothing stands there. -/
structure Removed (before after : FileTree) (names : List String) (last : String) : Prop where
  part : Part after before
  grounded : after.Grounded
  gone : ∀ directory, LeadsTo after names directory → after.get? (directory ++ [last]) = none

theorem removed_link {tree : FileTree} {top : RealPath} {target : String}
    (proper : ∀ name ∈ names ++ [last], IsProper name) (grounded : tree.Grounded)
    (walks : Walks tree false linkBudget [] (names ++ [last]) (.present top (.link target))) :
    Removed tree (tree.erase top) names last := by
  have there : tree.get? top = some (.link target) := walks.stands grounded (get?_root _)
  refine ⟨part_erase tree top, grounded.erase ?_, ?_⟩
  · intro name
    by_contra below
    have directory := grounded top name below
    rw [there] at directory
    cases directory
  · intro directory leads
    rcases (leads.of_part (part_erase tree top)).one walks (proper last (by simp)) with
      ⟨wrong, -⟩ | ⟨node, same, -⟩
    · cases wrong
    · cases same
      rw [get?_erase, if_pos ⟨rfl, by simp⟩]

theorem removed_emptied {tree : FileTree} {directory : RealPath} (grounded : tree.Grounded)
    (leads : LeadsTo (tree.eraseBelow (directory ++ [last])) names directory) :
    Removed tree ((tree.eraseBelow (directory ++ [last])).erase (directory ++ [last])) names
      last := by
  refine ⟨?_, (grounded.eraseBelow _).erase ?_, ?_⟩
  · intro place node stands
    exact part_eraseBelow _ _ (part_erase _ _ stands)
  · intro name
    have below : isBelow (directory ++ [last]) (directory ++ [last] ++ [name]) = true :=
      (isBelow_iff _ _).mpr ⟨[name], by simp, rfl⟩
    exact (get?_eraseBelow _ _ _).trans (if_pos below)
  · intro other leadsOther
    rw [(leadsOther.of_part (part_erase _ _)).unique leads]
    exact (get?_erase _ _ _).trans (if_pos ⟨rfl, by simp⟩)

-- Emptying a directory can cut off the path to it; the empty directory then stays.
theorem removed_directory {top : RealPath} (proper : ∀ name ∈ names ++ [last], IsProper name)
    (grounded : disk.tree.Grounded)
    (checked : checkText (Path.ofReal (names ++ [last])).text = .ok ())
    (walks : Walks disk.tree false linkBudget [] (names ++ [last]) (.present top .directory))
    {result : Except IoCause Unit}
    (removed : (disk.withTree (disk.tree.eraseBelow top)).removeDir
      (Path.ofReal (names ++ [last])) = (result, left))
    (fine : result = .ok () ∨ result = .error .notFound) :
    Removed disk.tree left.tree names last := by
  have segments := segments_of_proper proper
  have notDot := proper last (by simp)
  have groundedBelow := grounded.eraseBelow top
  have part := part_eraseBelow disk.tree top
  unfold removeDir at removed
  split at removed
  · rename_i cause unlocated
    cases removed
    refine ⟨part, groundedBelow, ?_⟩
    intro directory leads
    rw [locateLast_of_leadsTo segments leads checked] at unlocated
    cases unlocated
  · cases removed
    rcases fine with wrong | wrong <;> cases wrong
  · rename_i found located
    obtain ⟨directory, same, leads, -⟩ := locateLast_ok segments located
    cases same
    rw [if_neg notDot.notHere, if_neg notDot.notUp] at removed
    dsimp only at removed
    split at removed
    · rename_i free
      cases removed
      refine ⟨part, groundedBelow, ?_⟩
      intro other leadsOther
      rw [leadsOther.unique leads]
      exact free
    · rename_i there
      split at removed
      · cases removed
        rcases fine with wrong | wrong <;> cases wrong
      · cases removed
        have here : top = directory ++ [last] := by
          rcases (leads.of_part part).one walks notDot with ⟨wrong, -⟩ | ⟨node, same, -⟩
          · cases wrong
          · cases same
            rfl
        subst here
        exact removed_emptied grounded leads
    · cases removed
      rcases fine with wrong | wrong <;> cases wrong

theorem removeTree_removed (proper : ∀ name ∈ names ++ [last], IsProper name)
    (grounded : disk.tree.Grounded) {result : Except IoCause Unit}
    (removed : disk.removeTree (Path.ofReal (names ++ [last])) = (result, left))
    (fine : result = .ok () ∨ result = .error .notFound) :
    Removed disk.tree left.tree names last := by
  have segments := segments_of_proper proper
  have notDot := proper last (by simp)
  unfold removeTree at removed
  split at removed
  · rename_i cause unlocated
    cases removed
    refine ⟨fun _ _ => id, grounded, ?_⟩
    intro directory leads
    exfalso
    rcases fine with wrong | missing
    · cases wrong
    · cases missing
      rw [locate, Path.stepsOf_ofReal segments, Path.startOf_ofReal] at unlocated
      cases checked : checkText (Path.ofReal (names ++ [last])).text with
      | error cause =>
          rw [checked] at unlocated
          cases unlocated
          exact checkText_ofReal_ne_notFound _ checked
      | ok =>
          rw [checked] at unlocated
          exact leads.one_ne_notFound notDot unlocated
  · rename_i place name located
    cases removed
    obtain ⟨-, walks⟩ := (locate_ok_iff segments).mp located
    refine ⟨fun _ _ => id, grounded, ?_⟩
    intro directory leads
    rcases leads.one walks notDot with ⟨-, free⟩ | ⟨node, wrong, -⟩
    · exact free
    · cases wrong
  · rename_i place target located
    cases removed
    obtain ⟨-, walks⟩ := (locate_ok_iff segments).mp located
    exact removed_link proper grounded walks
  · cases removed
    rcases fine with wrong | wrong <;> cases wrong
  · rename_i place located
    obtain ⟨checked, walks⟩ := (locate_ok_iff segments).mp located
    dsimp only at removed
    split at removed
    · rename_i missing
      cases removed
      exact removed_directory proper grounded checked walks missing (Or.inr rfl)
    · exact removed_directory proper grounded checked walks removed fine

end Disk

end PlatformBundle
