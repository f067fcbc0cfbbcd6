import PlatformBundle.Proofs.OpenWays
/-!
Directories that are there early. Work that goes through, and in the end leaves nothing but
directories on a way, goes through as well on a disk where that way is there beforehand, and comes
to the same: what it leaves differs in nothing but the directories of the way. It need not be known
where the work goes, so this holds at any absolute path.
-/

namespace PlatformBundle

open FileTree

namespace Disk

section Walking

variable {before after : FileTree} {follow : Bool} {budget : Nat} {directory : RealPath}
  {steps : List String}

/-- A free name at the end of a walk is still free, or it is the name of a new directory. -/
theorem Walks.grow_vacant {spared : RealPath → Prop} {top : RealPath} {name : String}
    (grows : Grows spared before after)
    (walks : Walks before follow budget directory steps (.vacant top name)) :
    (after.get? (top ++ [name]) = none →
      Walks after follow budget directory steps (.vacant top name)) ∧
    (after.get? (top ++ [name]) = some .directory →
      Walks after follow budget directory steps (.present (top ++ [name]) .directory)) := by
  generalize ends : Place.vacant top name = place at walks
  induction walks with
  | done => cases ends
  | here onward ih =>
      exact ⟨fun free => .here ((ih ends).1 free), fun new => .here ((ih ends).2 new)⟩
  | up onward ih => exact ⟨fun free => .up ((ih ends).1 free), fun new => .up ((ih ends).2 new)⟩
  | vacant entry free =>
      cases ends
      exact ⟨fun free => .vacant entry free, fun new => .enter entry new .done⟩
  | file entry found => cases ends
  | link entry found stays => cases ends
  | enter entry found onward ih =>
      exact ⟨fun free => .enter entry (grows.directory found) ((ih ends).1 free),
        fun new => .enter entry (grows.directory found) ((ih ends).2 new)⟩
  | jump entry found goes onward ih =>
      exact ⟨fun free => .jump entry (grows.link.mpr found) goes ((ih ends).1 free),
        fun new => .jump entry (grows.link.mpr found) goes ((ih ends).2 new)⟩

/-- What stops a walk stops it still, unless it was that something was missing. -/
theorem walk_error_grow (grows : Grows (fun _ => True) before after) {cause : IoCause}
    (failed : walk before follow budget directory steps = .error cause)
    (other : cause ≠ .notFound) : walk after follow budget directory steps = .error cause := by
  induction budget using Nat.strongRecOn generalizing directory steps with
  | ind budget fewer =>
      induction steps generalizing directory with
      | nil =>
          rw [walk_nil] at failed
          cases failed
      | cons name rest ih =>
          by_cases here : name = "."
          · subst here
            rw [walk_here] at failed ⊢
            exact ih failed
          by_cases up : name = ".."
          · subst up
            rw [walk_up] at failed ⊢
            exact ih failed
          by_cases long : longestName < name.utf8ByteSize
          · rwa [walk_longName _ _ _ _ here up long] at failed ⊢
          have entry : IsEntryName name := ⟨here, up, Nat.le_of_not_lt long⟩
          rw [walk_name _ _ _ _ entry, walkName] at failed ⊢
          split at failed
          · split at failed
            · cases failed
            · cases failed
              exact absurd rfl other
          · rename_i found
            rw [grows.directory found]
            exact ih failed
          · rename_i found
            rw [grows.kept trivial found]
            exact failed
          · rename_i target found
            rw [grows.link.mpr found]
            dsimp only
            split at failed
            · cases failed
            · rename_i goes
              rw [if_neg goes]
              cases budget with
              | zero => exact failed
              | succ left => exact fewer left (Nat.lt_succ_self left) failed

end Walking

section Growing

variable {first second : Disk} {path : Path} (absolute : path.isAbsolute = true)
include absolute

theorem isDirectory_grow {spared : RealPath → Prop} (grows : Grows spared first.tree second.tree)
    (there : first.isDirectory path = true) : second.isDirectory path = true := by
  rw [isDirectory_iff_leads absolute] at there ⊢
  obtain ⟨checked, place, leads⟩ := there
  exact ⟨checked, place, leads.grow grows⟩

theorem locateLast_grow {spared : RealPath → Prop} {found : Option Last}
    (grows : Grows spared first.tree second.tree) (located : first.locateLast path = .ok found) :
    second.locateLast path = .ok found := by
  rw [locateLast_eq_steps absolute] at located ⊢
  obtain ⟨⟨⟩, checked, located⟩ := bind_eq_ok_iff.mp located
  refine bind_eq_ok_iff.mpr ⟨(), checked, ?_⟩
  split at located
  · exact located
  · obtain ⟨place, walked, ends⟩ := bind_eq_ok_iff.mp located
    split at ends
    · have leads := LeadsTo.grow grows (walks_of_walk walked)
      exact bind_eq_ok_iff.mpr ⟨_, walk_of_walks leads, ends⟩
    · cases ends
    · cases ends

theorem locateLast_error_grow {cause : IoCause}
    (grows : Grows (fun _ => True) first.tree second.tree)
    (failed : first.locateLast path = .error cause) (other : cause ≠ .notFound) :
    second.locateLast path = .error cause := by
  rw [locateLast_eq_steps absolute] at failed ⊢
  cases checked : checkText path.text with
  | error fault =>
      rw [checked] at failed
      cases failed
      rfl
  | ok =>
      rw [checked] at failed
      generalize path.steps.reverse = backwards at failed ⊢
      cases backwards with
      | nil => cases failed
      | cons last above =>
          simp only [bind, Except.bind] at failed ⊢
          rcases walked : walk first.tree true linkBudget [] above.reverse with
            fault | ⟨place, node⟩ | ⟨directory, name⟩
          · rw [walked] at failed
            cases failed
            rw [walk_error_grow grows walked other]
          · have onward := walk_of_walks ((walks_of_walk walked).grow grows (Or.inl trivial))
            rw [walked] at failed
            rw [onward]
            exact failed
          · rw [walked] at failed
            cases failed
            exact absurd rfl other

theorem locateLast_of_makeDirIfMissing {left : Disk}
    (made : first.makeDirIfMissing path = (.ok (), left)) :
    ∃ found, first.locateLast path = .ok found := by
  rcases makeDirIfMissing_ok made with new | ⟨there, -⟩
  · obtain ⟨last, takes, -⟩ := makeDir_ok_iff.mp new
    exact ⟨_, takes.located⟩
  · rcases locateLast_of_isDirectory absolute there with located | ⟨_, _, _, _, _, -, -, located⟩
    · exact ⟨_, located⟩
    · exact ⟨_, located⟩

end Growing

theorem makeDirIfMissing_of_missing {disk : Disk} {path : Path}
    (missing : disk.locateLast path = .error .notFound) :
    disk.makeDirIfMissing path = (.error .notFound, disk) := by
  rw [makeDirIfMissing, makeDir, missing]

def HasRoom (top : RealPath) (disk : Disk) : Prop :=
  ∀ place, place <+: top → View.Passable disk.tree.get? place

/-- The second disk holds what the first one does, and the directories of the way to a place. -/
def Roomier (top : RealPath) (first second : Disk) : Prop :=
  second.tree.get? = View.withDirs first.tree.get? top

section Rooms

variable {top place : RealPath} {first second left : Disk}

theorem HasRoom.of_grows (grows : Grows (fun _ => True) first.tree left.tree)
    (room : HasRoom top left) : HasRoom top first := by
  intro place above
  rcases found : first.tree.get? place with _ | _ | ⟨content, executable⟩ | target
  · exact Or.inl found
  · exact Or.inr found
  · have kept := grows.kept trivial found
    rcases room place above with free | directory <;> simp_all
  · have kept := grows.link.mpr found
    rcases room place above with free | directory <;> simp_all

theorem HasRoom.of_put_file {content : ByteArray} {executable : Bool} (inside : place ≠ [])
    (room : HasRoom top (first.withTree (first.tree.put place (.file content executable)))) :
    ¬ place <+: top ∧ HasRoom top first := by
  have stands (other : RealPath) :
      (first.withTree (first.tree.put place (.file content executable))).tree.get? other =
        if other = place then some (.file content executable) else first.tree.get? other :=
    get?_put _ _ _ _ inside
  have off : ¬ place <+: top := by
    intro on
    rcases room place on with free | directory
    · rw [stands place, if_pos rfl] at free
      cases free
    · rw [stands place, if_pos rfl] at directory
      cases directory
  refine ⟨off, fun other on => ?_⟩
  have elsewhere : other ≠ place := by
    rintro rfl
    exact off on
  have passable := room other on
  rwa [View.Passable, stands other, if_neg elsewhere] at passable

namespace Roomier

variable (roomier : Roomier top first second)
include roomier

theorem taken {node : Node} (found : first.tree.get? place = some node) :
    second.tree.get? place = some node := by
  rw [roomier, View.withDirs_taken found]

theorem outside (off : ¬ place <+: top) : second.tree.get? place = first.tree.get? place := by
  rw [roomier, View.withDirs_outside off]

theorem above (free : first.tree.get? place = none) (on : place <+: top) :
    second.tree.get? place = some .directory := by
  rw [roomier, View.withDirs_above on, free, Option.none_or]

theorem grows : Grows (fun _ => True) first.tree second.tree where
  directory := roomier.taken
  link := by
    intro place target
    refine ⟨fun found => ?_, roomier.taken⟩
    rcases before : first.tree.get? place with _ | node
    · by_cases on : place <+: top
      · rw [roomier.above before on] at found
        cases found
      · rw [roomier.outside on, before] at found
        cases found
    · rw [← found, roomier.taken before]
  kept := fun _ => roomier.taken

theorem grounded (room : HasRoom top first) (grounded : first.tree.Grounded) :
    second.tree.Grounded := by
  intro place name there
  by_cases free : first.tree.get? (place ++ [name]) = none
  · have on : place ++ [name] <+: top := by
      by_contra off
      exact there ((roomier.outside off).trans free)
    have higher : place <+: top := (List.prefix_append place [name]).trans on
    rcases room place higher with none | directory
    · exact roomier.above none higher
    · exact roomier.taken directory
  · exact roomier.taken (grounded place name free)

theorem put (inside : place ≠ []) (node : Node) :
    Roomier top (first.withTree (first.tree.put place node))
      (second.withTree (second.tree.put place node)) := by
  funext other
  change (second.tree.put place node).get? other =
    View.withDirs (first.tree.put place node).get? top other
  rw [get?_put _ _ _ _ inside, View.withDirs, get?_put _ _ _ _ inside]
  split
  · rw [Option.some_or]
  · rw [roomier]
    rfl

theorem put_above (inside : place ≠ []) (free : first.tree.get? place = none) (on : place <+: top) :
    Roomier top (first.withTree (first.tree.put place .directory)) second := by
  funext other
  change second.tree.get? other = View.withDirs (first.tree.put place .directory).get? top other
  rw [View.withDirs, get?_put _ _ _ _ inside]
  split
  · rename_i here
    rw [here, roomier.above free on, Option.some_or]
  · rw [roomier]
    rfl

end Roomier

end Rooms

/-- A step that goes through and leaves room on the way has found room there. It goes through as
well where the way is there early, and what it leaves is there early, too. -/
def Bears {ε α : Type} (top : RealPath) (step : Disk → Except ε α × Disk) : Prop :=
  ∀ ⦃first left value⦄, first.tree.Grounded → step first = (.ok value, left) →
    left.tree.Grounded ∧ (HasRoom top left → HasRoom top first ∧
      ∀ second, Roomier top first second →
        ∃ right, step second = (.ok value, right) ∧ Roomier top left right)

theorem bears_ok {ε α : Type} (top : RealPath) (value : α) :
    Bears top (fun disk => ((.ok value : Except ε α), disk)) := by
  rintro first left _ grounded ⟨⟩
  exact ⟨grounded, fun room => ⟨room, fun second roomier => ⟨second, rfl, roomier⟩⟩⟩

/-- Where all of the way is there in the end, it makes no difference when it was made. -/
theorem Bears.same_end {ε α : Type} {top : RealPath} {step : Disk → Except ε α × Disk}
    {first left : Disk} {value : α} {way : List String} (bears : Bears top step)
    (grounded : first.tree.Grounded) (done : step first = (.ok value, left))
    (leads : LeadsTo left.tree way top) :
    HasRoom top first ∧ ∀ second, Roomier top first second →
      ∃ right, step second = (.ok value, right) ∧
        ∀ spot, right.tree.get? spot = left.tree.get? spot := by
  obtain ⟨groundedLeft, ends⟩ := bears grounded done
  have stands : ∀ above, above <+: top → left.tree.get? above = some .directory :=
    fun above => stands_above leads groundedLeft
  obtain ⟨room, again⟩ := ends (fun above on => Or.inr (stands above on))
  refine ⟨room, fun second roomier => ?_⟩
  obtain ⟨right, done, roomierLeft⟩ := again second roomier
  refine ⟨right, done, fun spot => ?_⟩
  rw [roomierLeft, View.withDirs_of_stands stands]

section Making

variable {top : RealPath} {path : Path} (absolute : path.isAbsolute = true)
include absolute

-- A directory that the first disk lacks may be there on the second, on the way; then it stays.
theorem bears_makeDirIfMissing : Bears top (fun disk => disk.makeDirIfMissing path) := by
  intro first left _ grounded made
  have grown := makeDirIfMissing_grown (fun _ => True) absolute grounded made
  refine ⟨grown.grounded, fun room => ⟨room.of_grows grown.toGrows, fun second roomier => ?_⟩⟩
  have stays {middle : Disk} (there : middle.isDirectory path = true)
      (grows : Grows (fun _ => True) middle.tree second.tree) :
      second.makeDirIfMissing path = (.ok (), second) :=
    makeDirIfMissing_of_isDirectory absolute (isDirectory_grow absolute grows there)
  rcases makeDirIfMissing_ok made with new | ⟨there, rfl⟩
  · have ends := isDirectory_of_makeDirIfMissing absolute made
    obtain ⟨last, ⟨located, entry, free⟩, rfl⟩ := makeDir_ok_iff.mp new
    by_cases on : last.directory ++ [last.name] <+: top
    · have roomierLeft := roomier.put_above (by simp) free on
      exact ⟨second, stays ends roomierLeft.grows, roomierLeft⟩
    · have takes : second.TakesDir path last :=
        ⟨locateLast_grow absolute roomier.grows located, entry, (roomier.outside on).trans free⟩
      refine ⟨_, ?_, roomier.put (by simp) .directory⟩
      simp only [makeDirIfMissing, makeDir_ok_iff.mpr ⟨last, takes, rfl⟩]
  · exact ⟨second, stays there roomier.grows, roomier⟩

end Making

theorem makeFrom_of_above {disk made left : Disk} {path above : Path} {fuel : Nat}
    (absolute : path.isAbsolute = true) (parent : path.parent = some above)
    (grounded : disk.tree.Grounded)
    (makeAbove : disk.makeFrom (ancestorsUpTo fuel above) = (.ok (), made))
    (make : made.makeDirIfMissing path = (.ok (), left)) :
    disk.makeFrom (path :: ancestorsUpTo fuel above) = (.ok (), left) := by
  have absoluteAbove := Path.isAbsolute_parent absolute parent
  -- Where the path above is there already, nothing was made for it.
  have settled {found : Option Last} (located : disk.locateLast path = .ok found) :
      disk.makeDirIfMissing path = (.ok (), left) := by
    rw [makeFrom_there absoluteAbove (isDirectory_parent absolute parent located)] at makeAbove
    cases makeAbove
    exact make
  obtain ⟨found, fine⟩ := locateLast_of_makeDirIfMissing absolute make
  rw [makeFrom]
  rcases attempt : disk.makeDirIfMissing path with ⟨cause | ⟨⟩, tried⟩
  · by_cases missing : cause = .notFound
    · subst missing
      rw [makeDirIfMissing_error attempt]
      simp only [makeAbove, make]
    · exfalso
      rcases located : disk.locateLast path with fault | found
      · have other : fault ≠ .notFound := by
          rintro rfl
          rw [makeDirIfMissing_of_missing located] at attempt
          cases attempt
          exact missing rfl
        have grown := makeFrom_grown (fun _ => True) (ancestorsUpTo_absolute fuel absoluteAbove)
          grounded makeAbove
        rw [locateLast_error_grow absolute grown.toGrows located other] at fine
        cases fine
      · rw [settled located] at attempt
        cases attempt
  · obtain ⟨found, located⟩ := locateLast_of_makeDirIfMissing absolute attempt
    rw [settled located] at attempt
    cases attempt
    rfl

theorem createDirs_up {disk made left : Disk} {names : List String}
    (proper : ∀ name ∈ names, IsProper name) (grounded : disk.tree.Grounded)
    (makeAbove : disk.createDirs (Path.ofReal names) = (.ok (), made))
    (make : made.makeDirIfMissing (Path.ofReal (names ++ [".."])) = (.ok (), left)) :
    disk.createDirs (Path.ofReal (names ++ [".."])) = (.ok (), left) := by
  have parent : (Path.ofReal (names ++ [".."])).parent = some (Path.ofReal names) :=
    Path.parent_ofReal_of_speaks proper (by decide) (by decide)
  have filled : (Path.ofReal (names ++ [".."])).text.isEmpty = false := by
    rw [← Bool.not_eq_true, String.isEmpty_iff, ← String.toList_inj, Path.toList_ofReal]
    simp
  have enough : names.reverse.length < (Path.ofReal (names ++ [".."])).text.length := by
    have longer := Path.length_lt_text (names ++ [".."])
    rw [List.length_append, List.length_singleton] at longer
    rw [List.length_reverse]
    omega
  have upwards := Path.ancestorsUpTo_ofReal names.reverse
    (fun name listed => proper name (List.mem_reverse.mp listed)) enough
  rw [List.reverse_reverse] at upwards
  rw [createDirs_eq proper, ← upwards] at makeAbove
  rw [createDirs, ancestors, ancestorsUpTo, filled, parent]
  exact makeFrom_of_above (Path.isAbsolute_ofReal _) parent grounded makeAbove make

theorem bears_makeFrom {top : RealPath} (fuel : Nat) {path : Path}
    (absolute : path.isAbsolute = true) :
    Bears top (fun disk => disk.makeFrom (ancestorsUpTo fuel path)) := by
  induction fuel generalizing path with
  | zero => exact bears_ok top ()
  | succ fuel ih =>
      rw [ancestorsUpTo]
      split
      · exact bears_ok top ()
      split
      · exact bears_ok top ()
      rename_i above parent
      have absoluteAbove := Path.isAbsolute_parent absolute parent
      intro first left value grounded made
      dsimp only at made ⊢
      rcases makeFrom_cons_ok made with atOnce | ⟨-, middle, makeAbove, make⟩
      · obtain ⟨groundedLeft, ends⟩ := bears_makeDirIfMissing absolute grounded atOnce
        refine ⟨groundedLeft, fun room => ⟨(ends room).1, fun second roomier => ?_⟩⟩
        obtain ⟨right, makeSecond, roomierRight⟩ := (ends room).2 second roomier
        dsimp only at makeSecond
        exact ⟨right, by rw [makeFrom, makeSecond], roomierRight⟩
      · obtain ⟨groundedMiddle, higher⟩ := ih absoluteAbove grounded makeAbove
        obtain ⟨groundedLeft, ends⟩ := bears_makeDirIfMissing absolute groundedMiddle make
        refine ⟨groundedLeft, fun room => ?_⟩
        obtain ⟨roomMiddle, endsThere⟩ := ends room
        obtain ⟨roomFirst, higherThere⟩ := higher roomMiddle
        refine ⟨roomFirst, fun second roomier => ?_⟩
        obtain ⟨middleSecond, makeAboveSecond, roomierMiddle⟩ := higherThere second roomier
        obtain ⟨right, makeSecond, roomierRight⟩ := endsThere middleSecond roomierMiddle
        exact ⟨right, makeFrom_of_above absolute parent (roomier.grounded roomFirst grounded)
          makeAboveSecond makeSecond, roomierRight⟩

section Calls

variable {top : RealPath} {path : Path} (absolute : path.isAbsolute = true)
include absolute

theorem bears_createDirs : Bears top (fun disk => disk.createDirs path) :=
  bears_makeFrom _ absolute

-- There is no file on the way in the end, so the file that is written is off the way.
theorem bears_write (content : ByteArray) : Bears top (fun disk => disk.write path content) := by
  intro first left value grounded wrote
  have grown := write_grown absolute grounded wrote
  refine ⟨grown.grounded, fun room => ?_⟩
  obtain ⟨found, executable, ⟨⟨last, known, own⟩, located, fillable⟩, rfl⟩ := write_ok_iff.mp wrote
  obtain ⟨checked, walks⟩ := (locate_iff_walks absolute).mp located
  have stands := walks.stands grounded (get?_root _)
  have inside := fillable.inside stands
  obtain ⟨off, roomFirst⟩ := room.of_put_file inside
  refine ⟨roomFirst, fun second roomier => ⟨_, ?_, roomier.put inside _⟩⟩
  have onward : Walks second.tree true linkBudget [] (stepsOf path.text) found := by
    cases fillable with
    | vacant directory name =>
        exact (walks.grow_vacant roomier.grows).1 ((roomier.outside off).trans stands.2)
    | file place old executable => exact walks.grow roomier.grows (Or.inl trivial)
  have takes : second.TakesFile path found executable :=
    ⟨⟨last, locateLast_grow absolute roomier.grows known, own⟩,
      (locate_iff_walks absolute).mpr ⟨checked, onward⟩, fillable⟩
  exact write_ok_iff.mpr ⟨found, executable, takes, rfl⟩

end Calls

end Disk

namespace FileWork

variable {α β : Type} {top : RealPath}

theorem bears_pure (value : α) : Disk.Bears top (onDisk (pure value)) := Disk.bears_ok top value

theorem bears_bind {first : FileWork α} {follow : α → FileWork β}
    (begins : Disk.Bears top first.onDisk)
    (goes : ∀ value, Disk.Bears top (follow value).onDisk) :
    Disk.Bears top (onDisk (first >>= follow)) := by
  intro disk left result grounded ended
  obtain ⟨value, middle, start, rest⟩ := (onDisk_bind_ok_iff disk).mp ended
  obtain ⟨groundedMiddle, before⟩ := begins grounded start
  obtain ⟨groundedLeft, ends⟩ := goes value groundedMiddle rest
  refine ⟨groundedLeft, fun room => ?_⟩
  obtain ⟨roomMiddle, endsThere⟩ := ends room
  obtain ⟨roomFirst, beforeThere⟩ := before roomMiddle
  refine ⟨roomFirst, fun second roomier => ?_⟩
  obtain ⟨middleSecond, startSecond, roomierMiddle⟩ := beforeThere second roomier
  obtain ⟨right, restSecond, roomierRight⟩ := endsThere middleSecond roomierMiddle
  exact ⟨right, (onDisk_bind_ok_iff second).mpr ⟨value, middleSecond, startSecond, restSecond⟩,
    roomierRight⟩

end FileWork

namespace Files

open Disk

variable {top : RealPath} {path : Path} (absolute : path.isAbsolute = true)
include absolute

theorem bears_makeDir : Bears top (makeDir path).onDisk := by
  intro first left value grounded made
  obtain ⟨groundedLeft, ends⟩ := bears_createDirs absolute grounded (makeDir_ok_iff.mp made)
  refine ⟨groundedLeft, fun room => ⟨(ends room).1, fun second roomier => ?_⟩⟩
  obtain ⟨right, again, roomierRight⟩ := (ends room).2 second roomier
  exact ⟨right, makeDir_ok_iff.mpr again, roomierRight⟩

theorem bears_writeFile (text : String) : Bears top (write path text).onDisk := by
  have writes : Bears top (writeHere path text).onDisk := by
    intro first left value grounded wrote
    obtain ⟨groundedLeft, ends⟩ :=
      bears_write absolute text.toUTF8 grounded (writeHere_ok_iff.mp wrote)
    refine ⟨groundedLeft, fun room => ⟨(ends room).1, fun second roomier => ?_⟩⟩
    obtain ⟨right, again, roomierRight⟩ := (ends room).2 second roomier
    exact ⟨right, writeHere_ok_iff.mpr again, roomierRight⟩
  rw [write_eq]
  split
  · rename_i above parent
    exact FileWork.bears_bind (bears_makeDir (Path.isAbsolute_parent absolute parent))
      (fun _ => writes)
  · exact writes

end Files

end PlatformBundle
