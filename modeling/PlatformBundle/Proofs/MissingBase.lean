import PlatformBundle.Proofs.DiskSteps
/-!
Work at a path whose directory cannot be reached. Nothing is done there before the directories on
the way are made, and making them either leads to the directory or fails again the same way.
-/

namespace PlatformBundle

open FileTree

namespace Disk

section Walking

variable {tree : FileTree} {follow : Bool} {budget : Nat} {directory : RealPath}
  {steps rest : List String}

/-- Why a walk cannot go on from where another one has ended, if that is no directory. -/
def barrier : Except IoCause Place → IoCause
  | .error cause => cause
  | .ok (.vacant _ _) => .notFound
  | .ok (.present _ _) => .notDirectory

theorem walk_blocked (filled : rest ≠ [])
    (blocked : ∀ place, walk tree true budget directory steps ≠ .ok (.present place .directory)) :
    walk tree follow budget directory (steps ++ rest) =
      .error (barrier (walk tree true budget directory steps)) := by
  induction budget using Nat.strongRecOn generalizing directory steps with
  | ind budget fewer =>
      induction steps generalizing directory with
      | nil => exact absurd (walk_nil _ _ _ _) (blocked directory)
      | cons name steps ih =>
          rw [List.cons_append]
          by_cases here : name = "."
          · subst here
            rw [walk_here] at blocked ⊢
            rw [walk_here]
            exact ih blocked
          by_cases up : name = ".."
          · subst up
            rw [walk_up] at blocked ⊢
            rw [walk_up]
            exact ih blocked
          by_cases long : longestName < name.utf8ByteSize
          · rw [walk_longName _ _ _ _ here up long, walk_longName _ _ _ _ here up long]
            rfl
          have entry : IsEntryName name := ⟨here, up, Nat.le_of_not_lt long⟩
          have more : (steps ++ rest).isEmpty = false := by simp [filled]
          rw [walk_name _ _ _ _ entry] at blocked ⊢
          rw [walk_name _ _ _ _ entry]
          unfold walkName at blocked ⊢
          rcases found : tree.get? (directory ++ [name]) with _ | _ | _ | target <;>
            simp only [found, more, Bool.not_true, Bool.and_false, Bool.false_and,
              Bool.false_eq_true, if_false] at blocked ⊢
          · cases steps <;> rfl
          · exact ih blocked
          · cases steps <;> rfl
          · cases budget with
            | zero => rfl
            | succ left =>
                rw [← List.append_assoc]
                exact fewer left (Nat.lt_succ_self left) blocked

end Walking

variable {disk left : Disk} {names : List String} {last : String}

def Blocked (tree : FileTree) (names : List String) : Prop := ∀ place, ¬ LeadsTo tree names place

def obstacle (tree : FileTree) (names : List String) : IoCause :=
  barrier (walk tree true linkBudget [] names)

theorem Blocked.walk_eq (blocked : Blocked disk.tree names) {follow : Bool} {rest : List String}
    (filled : rest ≠ []) : walk disk.tree follow linkBudget [] (names ++ rest) =
      .error (obstacle disk.tree names) :=
  walk_blocked filled (fun place walked => blocked place (walks_of_walk walked))

theorem Blocked.onward (blocked : Blocked disk.tree names) (more : List String) :
    Blocked disk.tree (names ++ more) := by
  intro place leads
  by_cases filled : more = []
  · rw [filled, List.append_nil] at leads
    exact blocked place leads
  · obtain ⟨middle, front⟩ := leads.front filled
    exact blocked middle front

section Calls

variable (proper : ∀ name ∈ names ++ [last], IsProper name)
  (checked : checkText (Path.ofReal (names ++ [last])).text = .ok ())
  (blocked : Blocked disk.tree names)
include proper checked blocked

theorem Blocked.removeTree_eq : disk.removeTree (Path.ofReal (names ++ [last])) =
    (.error (obstacle disk.tree names), disk) := by
  have located : disk.locate false (Path.ofReal (names ++ [last])) =
      .error (obstacle disk.tree names) := by
    rw [locate, checked, Path.stepsOf_ofReal (segments_of_proper proper), Path.startOf_ofReal]
    exact blocked.walk_eq (List.cons_ne_nil last [])
  rw [removeTree, located]

theorem Blocked.makeDir_eq : disk.makeDir (Path.ofReal (names ++ [last])) =
    (.error (obstacle disk.tree names), disk) := by
  have located : disk.locateLast (Path.ofReal (names ++ [last])) =
      .error (obstacle disk.tree names) := by
    rw [locateLast_eq (segments_of_proper proper), checked, obstacle]
    rcases walked : walk disk.tree true linkBudget [] names with
      cause | ⟨place, node⟩ | ⟨place, name⟩
    · rfl
    · cases node with
      | directory => exact absurd (walks_of_walk walked) (blocked place)
      | file content executable => rfl
      | link target => rfl
    · rfl
  rw [makeDir, located]

theorem Blocked.makeDirIfMissing_eq : disk.makeDirIfMissing (Path.ofReal (names ++ [last])) =
    (.error (obstacle disk.tree names), disk) := by
  have absent : disk.isDirectory (Path.ofReal (names ++ [last])) = false := by
    rw [← Bool.not_eq_true, isDirectory_iff (segments_of_proper proper)]
    rintro ⟨-, place, leads⟩
    exact blocked.onward [last] place leads
  rw [makeDirIfMissing, blocked.makeDir_eq proper checked, absent]
  cases obstacle disk.tree names <;> rfl

end Calls

section Making

theorem checkText_of_missing (segments : ∀ name ∈ names ++ [last], IsSegment name)
    (missing : disk.makeDirIfMissing (Path.ofReal (names ++ [last])) = (.error .notFound, left)) :
    checkText (Path.ofReal (names ++ [last])).text = .ok () := by
  cases checked : checkText (Path.ofReal (names ++ [last])).text with
  | ok => rfl
  | error cause =>
      have differ : cause ≠ .notFound := by
        rintro rfl
        exact checkText_ofReal_ne_notFound _ checked
      have failed : disk.makeDir (Path.ofReal (names ++ [last])) = (.error cause, disk) := by
        simp [makeDir, locateLast_eq segments, checked, bind, Except.bind]
      rw [makeDirIfMissing, failed] at missing
      split at missing
      · cases missing
      · split at missing <;> cases missing
      · rename_i ended
        cases ended
        cases missing
        exact absurd rfl differ

theorem makeDirIfMissing_free (proper : ∀ name ∈ names ++ [last], IsProper name)
    (checked : checkText (Path.ofReal (names ++ [last])).text = .ok ()) {directory : RealPath}
    (leads : LeadsTo disk.tree names directory)
    (free : disk.tree.get? (directory ++ [last]) = none) :
    disk.makeDirIfMissing (Path.ofReal (names ++ [last])) =
      if longestName < last.utf8ByteSize then (.error .nameTooLong, disk)
      else (.ok (), disk.withTree (disk.tree.put (directory ++ [last]) .directory)) := by
  have own := proper last (by simp)
  have notDot : isDotName last = false := by simp [isDotName, own.notHere, own.notUp]
  have made : disk.makeDir (Path.ofReal (names ++ [last])) =
      if longestName < last.utf8ByteSize then (.error .nameTooLong, disk)
      else (.ok (), disk.withTree (disk.tree.put (directory ++ [last]) .directory)) := by
    rw [makeDir, locateLast_of_leadsTo (segments_of_proper proper) leads checked]
    simp [notDot, free]
  rw [makeDirIfMissing, made]
  by_cases long : longestName < last.utf8ByteSize <;> simp [long]

theorem makeDirIfMissing_new (segments : ∀ name ∈ names ++ [last], IsSegment name)
    (made : disk.makeDirIfMissing (Path.ofReal (names ++ [last])) = (.ok (), left))
    {place : RealPath} (stands : left.tree.get? place ≠ none) :
    disk.tree.get? place ≠ none ∨ LeadsTo left.tree (names ++ [last]) place := by
  rcases makeDirIfMissing_ok made with new | ⟨-, rfl⟩
  · obtain ⟨directory, leads, entry, free, rfl⟩ := makeDir_ok segments new
    by_cases here : place = directory ++ [last]
    · have grows : Grows (fun _ => True) disk.tree
          (disk.tree.put (directory ++ [last]) .directory) :=
        .put_directory (by simp) free
      rw [here]
      exact Or.inr ((leads.grow grows).enter entry (by simp [get?_put]))
    · refine Or.inl ?_
      rwa [withTree, get?_put _ _ _ _ (by simp), if_neg here] at stands
  · exact Or.inl stands

theorem makeFrom_above {up : List String} {middle : Disk}
    (proper : ∀ name ∈ up.reverse ++ [last], IsProper name) (grounded : disk.tree.Grounded)
    (missing : disk.makeDirIfMissing (Path.ofReal (up.reverse ++ [last])) =
      (.error .notFound, disk))
    (makeAbove : disk.makeFrom (Path.upwards up) = (.ok (), middle)) :
    ∃ top, Grown (fun _ => True) disk.tree middle.tree ∧ LeadsTo middle.tree up.reverse top ∧
      disk.tree.Vacant top := by
  have properUp : ∀ name ∈ up, IsProper name :=
    fun name listed => proper name (List.mem_append_left _ (List.mem_reverse.mpr listed))
  obtain ⟨grown, ⟨top, leads, either⟩, -⟩ :=
    makeFrom_reached (fun _ => True) properUp grounded makeAbove
  refine ⟨top, grown, leads, ?_⟩
  rcases either with old | new
  · exact absurd missing (makeDirIfMissing_ne_notFound proper old)
  · exact new

theorem makeFrom_new {up : List String} (proper : ∀ name ∈ up, IsProper name)
    (grounded : disk.tree.Grounded) (made : disk.makeFrom (Path.upwards up) = (.ok (), left))
    {place : RealPath} (stands : left.tree.get? place ≠ none) : disk.tree.get? place ≠ none ∨
      ∃ top, LeadsTo left.tree up.reverse top ∧ place <+: top := by
  induction up generalizing left with
  | nil =>
      cases made
      exact Or.inl stands
  | cons last up ih =>
      have properForward : ∀ name ∈ up.reverse ++ [last], IsProper name := by
        intro name listed
        exact proper name (by simpa [or_comm] using listed)
      have properAbove := fun name later => proper name (List.mem_cons_of_mem last later)
      have segments := segments_of_proper properForward
      rw [Path.upwards, List.reverse_cons] at made
      rw [List.reverse_cons]
      rcases makeFrom_cons_ok made with atOnce | ⟨missing, middle, makeAbove, make⟩
      · rcases makeDirIfMissing_new segments atOnce stands with old | leads
        · exact Or.inl old
        · exact Or.inr ⟨place, leads, List.prefix_rfl⟩
      · obtain ⟨top, grownAbove, leadsTop, new⟩ :=
          makeFrom_above properForward grounded missing makeAbove
        obtain ⟨-, ends, -⟩ := makeDirIfMissing_below properForward grownAbove leadsTop new make
        rcases makeDirIfMissing_new segments make stands with before | leads
        · rcases ih properAbove makeAbove before with old | ⟨other, leads, inside⟩
          · exact Or.inl old
          · rw [leads.unique leadsTop] at inside
            exact Or.inr ⟨_, ends, inside.trans (List.prefix_append _ _)⟩
        · exact Or.inr ⟨place, leads, List.prefix_rfl⟩

/-- Making directories fails where it begins, or at a name that is too long. -/
theorem makeFrom_failed {up : List String} (proper : ∀ name ∈ up, IsProper name)
    (grounded : disk.tree.Grounded) {cause : IoCause}
    (failed : disk.makeFrom (Path.upwards up) = (.error cause, left)) : left = disk ∨
      cause = .nameTooLong ∧ (∃ name ∈ up, longestName < name.utf8ByteSize) ∧
        walk left.tree true linkBudget [] up.reverse = .error .nameTooLong := by
  induction up generalizing left with
  | nil => cases failed
  | cons last up ih =>
      have properForward : ∀ name ∈ up.reverse ++ [last], IsProper name := by
        intro name listed
        exact proper name (by simpa [or_comm] using listed)
      have properAbove := fun name later => proper name (List.mem_cons_of_mem last later)
      rw [Path.upwards, List.reverse_cons] at failed
      rw [List.reverse_cons]
      rcases makeFrom_cons failed with
        atOnce | ⟨missing, ⟨middle, makeAbove, make⟩ | ⟨_, failedAbove, ⟨⟩⟩⟩
      · exact Or.inl (makeDirIfMissing_error atOnce)
      · have checked := checkText_of_missing (segments_of_proper properForward) missing
        obtain ⟨top, -, leadsTop, new⟩ := makeFrom_above properForward grounded missing makeAbove
        have free : middle.tree.get? (top ++ [last]) = none := by
          by_contra stands
          rcases makeFrom_new properAbove grounded makeAbove stands with
            old | ⟨other, leads, inside⟩
          · exact old (new [last])
          · rw [leads.unique leadsTop] at inside
            have longer := inside.length_le
            rw [List.length_append, List.length_singleton] at longer
            omega
        obtain ⟨onward, same⟩ := leadsTop.onward
        rw [makeDirIfMissing_free properForward checked leadsTop free] at make
        split at make
        · rename_i long
          cases make
          have own := proper last List.mem_cons_self
          refine Or.inr ⟨rfl, ⟨last, List.mem_cons_self, long⟩, ?_⟩
          rw [same true _ (List.cons_ne_nil last []),
            walk_longName _ _ _ _ own.notHere own.notUp long]
        · cases make
      · rcases ih properAbove failedAbove with back | ⟨long, ⟨name, listed, beyond⟩, walked⟩
        · exact Or.inl back
        · refine Or.inr ⟨long, ⟨name, List.mem_cons_of_mem _ listed, beyond⟩, ?_⟩
          rw [walk_blocked (List.cons_ne_nil last []) (by simp [walked]), walked]
          rfl

theorem createDirs_eq (proper : ∀ name ∈ names, IsProper name) :
    disk.createDirs (Path.ofReal names) = disk.makeFrom (Path.upwards names.reverse) := by
  have backwards := Path.ancestors_ofReal names.reverse
    (fun name listed => proper name (List.mem_reverse.mp listed))
  rw [List.reverse_reverse] at backwards
  rw [createDirs, backwards]

theorem createDirs_concat (proper : ∀ name ∈ names ++ [last], IsProper name) :
    disk.createDirs (Path.ofReal (names ++ [last])) =
      match disk.makeDirIfMissing (Path.ofReal (names ++ [last])) with
      | (.error .notFound, same) =>
          match same.createDirs (Path.ofReal names) with
          | (.ok (), made) => made.makeDirIfMissing (Path.ofReal (names ++ [last]))
          | (.error cause, made) => (.error cause, made)
      | done => done := by
  have base (middle : Disk) : middle.createDirs (Path.ofReal names) =
      middle.makeFrom (Path.upwards names.reverse) :=
    createDirs_eq (fun name listed => proper name (List.mem_append_left _ listed))
  have unrolled : disk.createDirs (Path.ofReal (names ++ [last])) = _ := createDirs_eq proper
  rw [List.reverse_concat, Path.upwards, makeFrom, List.reverse_cons, List.reverse_reverse]
    at unrolled
  simp only [base]
  exact unrolled

theorem Blocked.obstacle_eq {result : Except IoCause Unit} (proper : ∀ name ∈ names, IsProper name)
    (blocked : Blocked disk.tree names)
    (made : disk.createDirs (Path.ofReal names) = (result, left))
    (changed : result = .ok () ∨ left ≠ disk) : obstacle disk.tree names = .notFound := by
  rcases names.eq_nil_or_concat with rfl | ⟨front, name, rfl⟩
  · exact absurd .done (blocked [])
  · rw [List.concat_eq_append] at made blocked proper ⊢
    rw [createDirs_concat proper] at made
    split at made
    · rename_i same missing
      have blockedFront : Blocked disk.tree front := by
        intro place leads
        exact makeDirIfMissing_ne_notFound proper leads missing
      have checked := checkText_of_missing (segments_of_proper proper) missing
      rw [blockedFront.makeDirIfMissing_eq proper checked, Prod.mk.injEq] at missing
      have first : obstacle disk.tree front = .notFound := Except.error.inj missing.1
      rw [obstacle, blockedFront.walk_eq (List.cons_ne_nil name []), first]
      rfl
    · rcases result with cause | ⟨⟩
      · rcases changed with wrong | moved
        · cases wrong
        · exact absurd (makeDirIfMissing_error made) moved
      · rcases makeDirIfMissing_ok made with new | ⟨there, -⟩
        · obtain ⟨directory, leads, entry, free, -⟩ := makeDir_ok (segments_of_proper proper) new
          obtain ⟨onward, same⟩ := leads.onward
          rw [obstacle, same true _ (List.cons_ne_nil name []), walk_name _ _ _ _ entry, walkName,
            free]
          rfl
        · obtain ⟨-, place, leads⟩ := (isDirectory_iff (segments_of_proper proper)).mp there
          exact absurd leads (blocked place)

end Making

section Roots

variable {cause : IoCause}

theorem removeTree_unchecked (unchecked : checkText (Path.ofReal (names ++ [last])).text =
    .error cause) : disk.removeTree (Path.ofReal (names ++ [last])) = (.error cause, disk) := by
  rw [removeTree, locate, unchecked]
  rfl

variable (proper : ∀ name ∈ names ++ [last], IsProper name)
include proper

theorem createDirs_unchecked (unchecked : checkText (Path.ofReal (names ++ [last])).text =
    .error cause) : disk.createDirs (Path.ofReal (names ++ [last])) = (.error cause, disk) := by
  have segments := segments_of_proper proper
  have absent : disk.isDirectory (Path.ofReal (names ++ [last])) = false := by
    rw [← Bool.not_eq_true, isDirectory_iff segments, unchecked]
    simp
  have failed : disk.makeDir (Path.ofReal (names ++ [last])) = (.error cause, disk) := by
    simp [makeDir, locateLast_eq segments, unchecked, bind, Except.bind]
  have differ : cause ≠ .notFound := by
    rintro rfl
    exact checkText_ofReal_ne_notFound _ unchecked
  rw [createDirs_concat proper, makeDirIfMissing, failed, absent]
  cases cause <;> first | rfl | exact absurd rfl differ

theorem checkText_of_made
    (made : disk.createDirs (Path.ofReal (names ++ [last])) = (.ok (), left)) :
    checkText (Path.ofReal (names ++ [last])).text = .ok () := by
  cases text : checkText (Path.ofReal (names ++ [last])).text with
  | ok => rfl
  | error cause =>
      rw [createDirs_unchecked proper text] at made
      cases made

theorem createDirs_of_leads {place : RealPath} (leads : LeadsTo disk.tree names place) :
    disk.createDirs (Path.ofReal (names ++ [last])) =
      disk.makeDirIfMissing (Path.ofReal (names ++ [last])) := by
  rw [createDirs_concat proper]
  split
  · rename_i missing
    exact absurd missing (makeDirIfMissing_ne_notFound proper leads)
  · rfl

theorem Blocked.createDirs_eq (blocked : Blocked disk.tree names)
    (checked : checkText (Path.ofReal (names ++ [last])).text = .ok ()) :
    disk.createDirs (Path.ofReal (names ++ [last])) =
      if obstacle disk.tree names = .notFound then
        match disk.createDirs (Path.ofReal names) with
        | (.ok (), made) => made.makeDirIfMissing (Path.ofReal (names ++ [last]))
        | (.error cause, made) => (.error cause, made)
      else (.error (obstacle disk.tree names), disk) := by
  rw [createDirs_concat proper, blocked.makeDirIfMissing_eq proper checked]
  cases obstacle disk.tree names <;> rfl

end Roots

/-- A directory that the names lead to, in a tree that holds nothing below it. -/
structure NewBase (tree : FileTree) (names : List String) (base : RealPath) : Prop where
  leads : LeadsTo tree names base
  grounded : tree.Grounded
  empty : ∀ rest, rest ≠ [] → tree.get? (base ++ rest) = none

section Bases

variable (properBase : ∀ name ∈ names, IsProper name) (grounded : disk.tree.Grounded)
include properBase grounded

theorem blocked_of_failed {cause : IoCause}
    (failed : disk.createDirs (Path.ofReal names) = (.error cause, left)) : left = disk ∨
      cause = .nameTooLong ∧ (∃ name ∈ names, longestName < name.utf8ByteSize) ∧
        Blocked left.tree names ∧ obstacle left.tree names = .nameTooLong := by
  have backwards : ∀ name ∈ names.reverse, IsProper name := by simpa using properBase
  rw [createDirs_eq properBase] at failed
  rcases makeFrom_failed backwards grounded failed with
    back | ⟨long, ⟨name, listed, beyond⟩, walked⟩
  · exact Or.inl back
  · rw [List.reverse_reverse] at walked
    refine Or.inr ⟨long, ⟨name, List.mem_reverse.mp listed, beyond⟩, fun place leads => ?_, ?_⟩
    · rw [walk_of_walks leads] at walked
      cases walked
    · rw [obstacle, walked]
      rfl

theorem newBase_of_made (blocked : Blocked disk.tree names)
    (made : disk.createDirs (Path.ofReal names) = (.ok (), left)) :
    ∃ base, NewBase left.tree names base := by
  have backwards : ∀ name ∈ names.reverse, IsProper name := by simpa using properBase
  rw [createDirs_eq properBase] at made
  have reached : Grown (fun _ => True) _ _ ∧ _ :=
    makeFrom_reached (fun _ => True) backwards grounded made
  obtain ⟨grown, ⟨base, leads, either⟩, -⟩ := reached
  rw [List.reverse_reverse] at leads either
  have new := either.resolve_left (blocked base)
  refine ⟨base, leads, grown.grounded, fun rest filled => ?_⟩
  by_contra stands
  rcases makeFrom_new backwards grounded made stands with old | ⟨top, leadsTop, inside⟩
  · exact old (new rest)
  · rw [List.reverse_reverse] at leadsTop
    rw [leadsTop.unique leads] at inside
    have longer := inside.length_le
    have more := List.length_pos_iff.mpr filled
    rw [List.length_append] at longer
    omega

end Bases

section Calls

variable (proper : ∀ name ∈ names ++ [last], IsProper name) (grounded : disk.tree.Grounded)
  (blocked : Blocked disk.tree names)
include proper grounded blocked

/-- Once the base is made, a call that makes the directory below it goes as it went before. -/
theorem createDirs_after_base (made : disk.createDirs (Path.ofReal names) = (.ok (), left)) :
    disk.createDirs (Path.ofReal (names ++ [last])) =
        left.createDirs (Path.ofReal (names ++ [last])) ∨
      ∃ cause, disk.createDirs (Path.ofReal (names ++ [last])) = (.error cause, disk) ∧
        left.createDirs (Path.ofReal (names ++ [last])) = (.error cause, left) := by
  cases checked : checkText (Path.ofReal (names ++ [last])).text with
  | error cause =>
      exact Or.inr ⟨cause, createDirs_unchecked proper checked, createDirs_unchecked proper checked⟩
  | ok =>
      have properBase := fun name listed => proper name (List.mem_append_left [last] listed)
      obtain ⟨base, new⟩ := newBase_of_made properBase grounded blocked made
      left
      rw [createDirs_of_leads proper new.leads, blocked.createDirs_eq proper checked,
        if_pos (blocked.obstacle_eq properBase made (Or.inl rfl)), made]

theorem removeTree_after_base (made : disk.createDirs (Path.ofReal names) = (.ok (), left))
    (short : last.utf8ByteSize ≤ longestName) :
    ∃ cause, disk.removeTree (Path.ofReal (names ++ [last])) = (.error cause, disk) ∧
      left.removeTree (Path.ofReal (names ++ [last])) = (.error cause, left) := by
  cases checked : checkText (Path.ofReal (names ++ [last])).text with
  | error cause => exact ⟨cause, removeTree_unchecked checked, removeTree_unchecked checked⟩
  | ok =>
      have properBase := fun name listed => proper name (List.mem_append_left [last] listed)
      have own := proper last (by simp)
      obtain ⟨base, new⟩ := newBase_of_made properBase grounded blocked made
      obtain ⟨onward, same⟩ := new.leads.onward
      have walked : walk left.tree false linkBudget [] (names ++ [last]) =
          .ok (.vacant base last) := by
        rw [same false _ (List.cons_ne_nil last []),
          walk_name _ _ _ _ ⟨own.notHere, own.notUp, short⟩, walkName,
          new.empty [last] (List.cons_ne_nil last [])]
        rfl
      have located : left.locate false (Path.ofReal (names ++ [last])) =
          .ok (.vacant base last) :=
        (locate_ok_iff (segments_of_proper proper)).mpr ⟨checked, walks_of_walk walked⟩
      refine ⟨.notFound, ?_, ?_⟩
      · rw [blocked.removeTree_eq proper checked,
          blocked.obstacle_eq properBase made (Or.inl rfl)]
      · rw [removeTree, located]

theorem createDirs_without_base {cause : IoCause}
    (failed : disk.createDirs (Path.ofReal names) = (.error cause, left)) :
    ∃ fault, ∀ either, either = disk ∨ either = left →
      (either.createDirs (Path.ofReal (names ++ [last]))).1 = .error fault ∧
        ((either.createDirs (Path.ofReal (names ++ [last]))).2 = disk ∨
          (either.createDirs (Path.ofReal (names ++ [last]))).2 = left) := by
  cases checked : checkText (Path.ofReal (names ++ [last])).text with
  | error fault =>
      refine ⟨fault, fun either known => ?_⟩
      rw [createDirs_unchecked proper checked]
      exact ⟨rfl, known⟩
  | ok =>
      have properBase := fun name listed => proper name (List.mem_append_left [last] listed)
      have before := blocked.createDirs_eq proper checked
      rw [failed] at before
      by_cases back : left = disk
      · subst back
        refine ⟨if obstacle left.tree names = .notFound then cause else obstacle left.tree names,
          fun either known => ?_⟩
        rw [or_self_iff.mp known, before]
        split <;> simp
      · obtain ⟨rfl, -, blockedLeft, stuck⟩ :=
          (blocked_of_failed properBase grounded failed).resolve_left back
        rw [if_pos (blocked.obstacle_eq properBase failed (Or.inr back))] at before
        have after := blockedLeft.createDirs_eq proper checked
        rw [stuck, if_neg (by simp)] at after
        refine ⟨.nameTooLong, ?_⟩
        rintro either (rfl | rfl)
        · rw [before]
          exact ⟨rfl, Or.inr rfl⟩
        · rw [after]
          exact ⟨rfl, Or.inr rfl⟩

theorem removeTree_without_base {cause : IoCause}
    (failed : disk.createDirs (Path.ofReal names) = (.error cause, left))
    (short : ∀ name ∈ names, name.utf8ByteSize ≤ longestName) :
    ∃ fault, ∀ either, either = disk ∨ either = left →
      either.removeTree (Path.ofReal (names ++ [last])) = (.error fault, either) := by
  cases checked : checkText (Path.ofReal (names ++ [last])).text with
  | error fault => exact ⟨fault, fun _ _ => removeTree_unchecked checked⟩
  | ok =>
      have properBase := fun name listed => proper name (List.mem_append_left [last] listed)
      have back : left = disk := by
        rcases blocked_of_failed properBase grounded failed with
          back | ⟨-, ⟨name, listed, beyond⟩, -⟩
        · exact back
        · exact absurd (short name listed) (Nat.not_le_of_lt beyond)
      subst back
      refine ⟨obstacle left.tree names, fun either known => ?_⟩
      rw [or_self_iff.mp known]
      exact blocked.removeTree_eq proper checked

end Calls

end Disk

end PlatformBundle
