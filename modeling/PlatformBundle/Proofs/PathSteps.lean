import PlatformBundle.Proofs.DiskGrowth
/-!
Absolute paths, however they are written. Separators may be repeated and may end the text, and `.`
and `..` may stand anywhere: what an operation comes to depends on the names alone, and the path
above is spelled by the first of them.
-/

namespace PlatformBundle

open FileTree Text

namespace Path

variable {path above : Path}

def steps (path : Path) : List String :=
  ((pieces '/' path.text.toList).filter (fun piece => !piece.isEmpty)).map String.ofList

/-- A separator at the end is one step more, which leads nowhere else. -/
theorem stepsOf_eq (path : Path) :
    Disk.stepsOf path.text = path.steps ∨ Disk.stepsOf path.text = path.steps ++ ["."] := by
  unfold Disk.stepsOf
  dsimp only
  split
  · exact Or.inr rfl
  · exact Or.inl (List.append_nil _)

-- The silent pieces at the end and those before the last component go with that component.
theorem pieces_of_parent (absolute : path.isAbsolute = true) (parent : path.parent = some above) :
    ∃ kept tail, pieces '/' path.text.toList = [] :: (kept ++ tail) ∧ (∃ last ∈ tail, last ≠ []) ∧
      above.text.toList = if kept = [] then ['/'] else glue '/' ([] :: kept) := by
  obtain ⟨rest, spelled⟩ := isAbsolute_iff.mp absolute
  have cut : pieces '/' path.text.toList = [] :: pieces '/' rest := by
    rw [spelled, pieces, if_pos rfl]
  rw [cut]
  rw [Path.parent, cut] at parent
  dsimp only at parent
  generalize pieces '/' rest = body at parent
  split at parent
  · cases parent
  · rename_i last further named
    have speaks : silent last = false := by
      have first := List.head?_dropWhile_not silent body.reverse
      rw [named] at first
      simpa using first
    have filled : last ≠ [] := by
      rintro rfl
      cases speaks
    have backwards : body.reverse =
        body.reverse.takeWhile silent ++ last :: (further.takeWhile silent ++
          further.dropWhile silent) := by
      rw [List.takeWhile_append_dropWhile, ← named, List.takeWhile_append_dropWhile]
    have forwards : body = (further.dropWhile silent).reverse ++
        ((further.takeWhile silent).reverse ++
          last :: (body.reverse.takeWhile silent).reverse) := by
      have same := congrArg List.reverse backwards
      simpa only [List.reverse_reverse, List.reverse_append, List.reverse_cons, List.append_assoc,
        List.singleton_append] using same
    refine ⟨(further.dropWhile silent).reverse, _, congrArg (List.cons []) forwards,
      ⟨last, by simp, filled⟩, ?_⟩
    split at parent
    · rename_i none
      cases parent
      rw [none]
      rfl
    · rename_i some
      cases parent
      rw [if_neg (by simpa using some), String.toList_ofList]

theorem parent_steps (absolute : path.isAbsolute = true) (parent : path.parent = some above) :
    (∃ more, more ≠ [] ∧ path.steps = above.steps ++ more) ∧
      ∃ rest, path.text = above.text ++ rest := by
  obtain ⟨kept, tail, cut, ⟨last, listed, filled⟩, text⟩ := pieces_of_parent absolute parent
  have apart : ∀ part ∈ [] :: kept, '/' ∉ part := by
    intro part member
    refine sep_not_mem_pieces '/' path.text.toList part ?_
    rw [cut]
    rcases List.mem_cons.mp member with rfl | inside
    · exact List.mem_cons_self
    · exact List.mem_cons_of_mem _ (List.mem_append_left _ inside)
  have stepsAbove : above.steps =
      (kept.filter (fun piece => !piece.isEmpty)).map String.ofList := by
    rw [steps, text]
    split
    · rename_i none
      rw [none]
      rfl
    · rw [pieces_glue _ (List.cons_ne_nil _ _) apart, List.filter_cons_of_neg (by simp)]
  have tailFilled : tail ≠ [] := List.ne_nil_of_mem listed
  have whole : path.text.toList = glue '/' ([] :: kept) ++ '/' :: glue '/' tail := by
    rw [← glue_append (List.cons_ne_nil _ _) tailFilled, List.cons_append, ← cut, glue_pieces]
  constructor
  · refine ⟨(tail.filter (fun piece => !piece.isEmpty)).map String.ofList, ?_, ?_⟩
    · exact List.ne_nil_of_mem (List.mem_map_of_mem (List.mem_filter.mpr ⟨listed, by simpa⟩))
    · rw [stepsAbove, steps, cut, List.filter_cons_of_neg (by simp), List.filter_append,
        List.map_append]
  · by_cases none : kept = []
    · refine ⟨String.ofList (glue '/' tail), ?_⟩
      rw [← String.toList_inj, String.toList_append, String.toList_ofList, whole, text, if_pos none,
        none]
      rfl
    · refine ⟨String.ofList ('/' :: glue '/' tail), ?_⟩
      rw [← String.toList_inj, String.toList_append, String.toList_ofList, whole, text, if_neg none]

end Path

namespace Disk

variable {disk left : Disk} {path above : Path} {place : RealPath}

theorem leadsTo_stepsOf_iff {tree : FileTree} (path : Path) :
    LeadsTo tree (stepsOf path.text) place ↔ LeadsTo tree path.steps place := by
  rcases Path.stepsOf_eq path with same | same
  · rw [same]
  · rw [same]
    constructor
    · intro leads
      obtain ⟨directory, front⟩ := leads.front (List.cons_ne_nil "." [])
      rwa [leads.unique front.here]
    · exact LeadsTo.here

variable (absolute : path.isAbsolute = true)
include absolute

theorem locate_iff_walks {follow : Bool} {found : Place} : disk.locate follow path = .ok found ↔
    checkText path.text = .ok () ∧
      Walks disk.tree follow linkBudget [] (stepsOf path.text) found := by
  rw [locate, startOf_absolute absolute, bind_eq_ok_iff, ← walk_ok_iff]
  constructor
  · rintro ⟨⟨⟩, checked, walked⟩
    exact ⟨checked, walked⟩
  · rintro ⟨checked, walked⟩
    exact ⟨(), checked, walked⟩

theorem isDirectory_iff_leads : disk.isDirectory path = true ↔
    checkText path.text = .ok () ∧ ∃ place, LeadsTo disk.tree path.steps place := by
  have located {place : RealPath} : disk.locate true path = .ok (.present place .directory) ↔
      checkText path.text = .ok () ∧ LeadsTo disk.tree path.steps place := by
    rw [locate_iff_walks absolute, ← leadsTo_stepsOf_iff, LeadsTo]
  rw [← exists_and_left]
  simp only [← located]
  unfold isDirectory stat
  rcases disk.locate true path with cause | ⟨place, node⟩ | ⟨place, name⟩
  · simp [bind, Except.bind]
  · cases node <;> simp [bind, Except.bind]
  · simp [bind, Except.bind]

theorem locateLast_eq_steps : disk.locateLast path = (do
    checkText path.text
    match path.steps.reverse with
    | [] => .ok none
    | last :: above =>
        match ← walk disk.tree true linkBudget [] above.reverse with
        | .present directory .directory =>
            .ok (some ⟨directory, last, path.text.toList.getLast? == some '/'⟩)
        | .present _ _ => .error .notDirectory
        | .vacant _ _ => .error .notFound) := by
  rw [locateLast, startOf_absolute absolute, Path.steps, ← List.map_reverse]
  dsimp only
  cases ((pieces '/' path.text.toList).filter (fun piece => !piece.isEmpty)).reverse with
  | nil => rfl
  | cons last above =>
      have forwards : (above.map String.ofList).reverse = above.reverse.map String.ofList :=
        List.map_reverse.symm
      dsimp only [List.map_cons]
      exact forwards ▸ rfl

theorem locateLast_steps_ok {found : Option Last} (located : disk.locateLast path = .ok found) :
    checkText path.text = .ok () ∧ (path.steps = [] ∧ found = none ∨
      ∃ above last directory slash, path.steps = above ++ [last] ∧
        LeadsTo disk.tree above directory ∧ found = some ⟨directory, last, slash⟩) := by
  rw [locateLast_eq_steps absolute] at located
  obtain ⟨⟨⟩, checked, located⟩ := bind_eq_ok_iff.mp located
  refine ⟨checked, ?_⟩
  split at located
  · rename_i none
    cases located
    exact Or.inl ⟨List.reverse_eq_nil_iff.mp none, rfl⟩
  · rename_i last above backwards
    obtain ⟨place, walked, ends⟩ := bind_eq_ok_iff.mp located
    split at ends
    · rename_i directory
      cases ends
      exact Or.inr ⟨above.reverse, last, directory, _, List.reverse_eq_cons_iff.mp backwards,
        walks_of_walk walked, rfl⟩
    · cases ends
    · cases ends

theorem locateLast_of_steps {names : List String} {last : String}
    (checked : checkText path.text = .ok ()) (steps : path.steps = names ++ [last])
    (leads : LeadsTo disk.tree names place) :
    ∃ slash, disk.locateLast path = .ok (some ⟨place, last, slash⟩) := by
  have backwards : path.steps.reverse = last :: names.reverse := by simp [steps]
  refine ⟨path.text.toList.getLast? == some '/', ?_⟩
  rw [locateLast_eq_steps absolute, checked, backwards]
  simp only [List.reverse_reverse, walk_of_walks leads]
  rfl

/-- A path to a directory has no steps, or the last of them is taken from the directory that the
others lead to. -/
theorem locateLast_of_isDirectory (there : disk.isDirectory path = true) :
    disk.locateLast path = .ok none ∨ ∃ names last directory ending slash,
      LeadsTo disk.tree names directory ∧ LeadsTo disk.tree (names ++ [last]) ending ∧
      disk.locateLast path = .ok (some ⟨directory, last, slash⟩) := by
  obtain ⟨checked, ending, leads⟩ := (isDirectory_iff_leads absolute).mp there
  rcases path.steps.eq_nil_or_concat with root | ⟨names, last, steps⟩
  · rw [locateLast_eq_steps absolute, checked, root]
    exact Or.inl rfl
  · rw [List.concat_eq_append] at steps
    rw [steps] at leads
    obtain ⟨directory, front⟩ := leads.front (List.cons_ne_nil last [])
    obtain ⟨slash, located⟩ := locateLast_of_steps absolute checked steps front
    exact Or.inr ⟨names, last, directory, ending, slash, front, leads, located⟩

theorem makeDirIfMissing_of_isDirectory (there : disk.isDirectory path = true) :
    disk.makeDirIfMissing path = (.ok (), disk) := by
  have failed : disk.makeDir path = (.error .fileExists, disk) := by
    rcases locateLast_of_isDirectory absolute there with
      located | ⟨names, last, directory, ending, slash, front, leads, located⟩
    · rw [makeDir, located]
    · obtain ⟨budget, same⟩ := front.onward
      have walked := walk_of_walks leads
      rw [same true _ (List.cons_ne_nil last [])] at walked
      rw [makeDir, located]
      by_cases dot : isDotName last = true
      · simp only [dot, if_true]
      have own := isDotName_eq_false_iff.mp (Bool.eq_false_iff.mpr dot)
      have short : ¬ longestName < last.utf8ByteSize := by
        intro long
        rw [walk_longName _ _ _ _ own.1 own.2 long] at walked
        cases walked
      have taken : disk.tree.get? (directory ++ [last]) ≠ none := by
        intro free
        rw [walk_name _ _ _ _ ⟨own.1, own.2, Nat.le_of_not_lt short⟩, walkName, free] at walked
        cases walked
      obtain ⟨node, found⟩ := Option.ne_none_iff_exists'.mp taken
      simp [dot, short, found]
  rw [makeDirIfMissing, failed]
  exact if_pos there

theorem makeFrom_there (there : disk.isDirectory path = true) (fuel : Nat) :
    disk.makeFrom (ancestorsUpTo fuel path) = (.ok (), disk) := by
  have made := makeDirIfMissing_of_isDirectory absolute there
  cases fuel with
  | zero => rfl
  | succ fuel =>
      rw [ancestorsUpTo]
      split
      · rfl
      · split
        · rfl
        · rw [makeFrom, made]

theorem isDirectory_of_makeDirIfMissing (made : disk.makeDirIfMissing path = (.ok (), left)) :
    left.isDirectory path = true := by
  rcases makeDirIfMissing_ok made with new | ⟨there, rfl⟩
  · obtain ⟨found, takes, rfl⟩ := makeDir_ok_iff.mp new
    obtain ⟨checked, ⟨-, none⟩ | ⟨names, last, directory, slash, steps, leads, same⟩⟩ :=
      locateLast_steps_ok absolute takes.located
    · cases none
    cases same
    have grows : Grows (fun _ => True) disk.tree
        (disk.tree.put (directory ++ [last]) .directory) := .put_directory (by simp) takes.free
    have inside := (leads.grow grows).enter takes.entry
      (by rw [get?_put _ _ _ _ (by simp), if_pos rfl])
    exact (isDirectory_iff_leads absolute).mpr ⟨checked, _, steps ▸ inside⟩
  · exact there

theorem isDirectory_parent {found : Option Last} (parent : path.parent = some above)
    (located : disk.locateLast path = .ok found) : disk.isDirectory above = true := by
  obtain ⟨⟨more, filled, steps⟩, rest, text⟩ := Path.parent_steps absolute parent
  have absoluteAbove := Path.isAbsolute_parent absolute parent
  obtain ⟨checked, ⟨none, -⟩ | ⟨names, last, directory, -, ends, leads, -⟩⟩ :=
    locateLast_steps_ok absolute located
  · rw [steps] at none
    exact absurd (List.append_eq_nil_iff.mp none).2 filled
  refine (isDirectory_iff_leads absoluteAbove).mpr ⟨?_, ?_⟩
  · refine checkText_append ?_ (text ▸ checked)
    obtain ⟨chars, spelled⟩ := Path.isAbsolute_iff.mp absoluteAbove
    rw [← Bool.not_eq_true, String.isEmpty_iff, ← String.toList_inj, spelled]
    simp
  · obtain ⟨front, final, rfl⟩ := (List.eq_nil_or_concat more).resolve_left filled
    rw [List.concat_eq_append, ← List.append_assoc, ends] at steps
    obtain ⟨rfl, -⟩ := List.append_inj' steps rfl
    by_cases alone : front = []
    · rw [alone, List.append_nil] at leads
      exact ⟨directory, leads⟩
    · exact leads.front alone

end Disk

end PlatformBundle
