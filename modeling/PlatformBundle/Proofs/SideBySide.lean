import PlatformBundle.Proofs.DiskSteps
import PlatformBundle.Proofs.RootNames
import PlatformBundle.Proofs.Straying
/-!
Two disks side by side that one platform sees alike. They may differ in the staging roots of other
platforms; everything else is the same on both. What the platform does at and below its own staging
root then has the same outcome on both, and changes nothing outside of that root.
-/

namespace PlatformBundle

open FileTree Disk

/-- The directory that the staging roots stand in, and the platforms that have one. -/
structure Site where
  base : RealPath
  platforms : List Platform

namespace Site

variable (site : Site) (platform : Platform)

def root : RealPath := site.base ++ [platform.dirName]

def Taken (place : RealPath) : Prop := ∃ owner ∈ site.platforms, site.root owner <+: place

/-- At or below the staging root of another platform. -/
def Others (place : RealPath) : Prop :=
  ∃ owner ∈ site.platforms, owner ≠ platform ∧ site.root owner <+: place

def fence : Fence := ⟨site.root platform, site.Others platform⟩

variable {site platform}

theorem root_unique {other : Platform} {place : RealPath} (first : site.root platform <+: place)
    (second : site.root other <+: place) : platform = other := by
  have length : (site.root platform).length = (site.root other).length := by simp [root]
  have same :=
    (List.prefix_of_prefix_length_le first second (Nat.le_of_eq length)).eq_of_length length
  exact Platform.dirName_injective (List.singleton_inj.mp (List.append_cancel_left same))

theorem not_others {place : RealPath} (own : site.root platform <+: place) :
    ¬ site.Others platform place := by
  rintro ⟨owner, -, differ, theirs⟩
  exact differ (root_unique theirs own)

end Site

/-- A file system around the staging roots: the names of the staging base lead to the directory
that the roots stand in, and the way there meets none of them. -/
structure Surroundings where
  settings : Settings
  site : Site
  names : List String
  tree : FileTree
  workdir : RealPath
  proper : ∀ name ∈ names, IsProper name
  spelled : settings.stagingBase = Path.ofReal names
  checked : checkText (Path.ofReal names).text = .ok ()
  leads : LeadsTo tree names site.base
  clear : ¬ Meets tree site.Taken [] names

namespace Surroundings

variable (around : Surroundings) (platform : Platform)

structure Kept (disk : Disk) : Prop where
  outside : ∀ place, ¬ around.site.Taken place →
    disk.tree.get? place = around.tree.get? place
  workdir : disk.workdir = around.workdir

/-- Two disks that a platform sees alike, with no link in its staging root that leads out. -/
structure Alike (pool solo : Disk) : Prop where
  listed : platform ∈ around.site.platforms
  poolKept : around.Kept pool
  soloKept : around.Kept solo
  agree : ∀ place, ¬ around.site.Others platform place →
    pool.tree.get? place = solo.tree.get? place
  enclosed : Enclosed solo.tree (around.site.fence platform)

structure Below (path : Path) (names : List String) : Prop where
  absolute : ∀ directory, startOf directory path.text = []
  steps : stepsOf path.text = around.names ++ platform.dirName :: names
  down : ".." ∉ names

variable {around platform} {pool solo : Disk} {path : Path} {names : List String} {follow : Bool}

theorem Kept.leads {disk : Disk} (kept : around.Kept disk) :
    LeadsTo disk.tree around.names around.site.base := by
  obtain ⟨left, alike⟩ := around.leads.leads_alike around.clear
  exact (alike disk.tree kept.outside).1

namespace Alike

variable (alike : around.Alike platform pool solo)
include alike

theorem keeps_down (down : ".." ∉ names) :
    ¬ Strays solo.tree (around.site.fence platform) around.site.base
      (platform.dirName :: names) := by
  have proper := platform.isProper_dirName
  intro strays
  refine keeps_home alike.enclosed (fun _ => Site.not_others) proper.notHere proper.notUp rfl ?_
  exact Strays.of_append alike.enclosed (fun _ => Site.not_others) down strays

theorem walk_eq (down : ".." ∉ names) :
    walk pool.tree follow linkBudget [] (around.names ++ platform.dirName :: names) =
      walk solo.tree follow linkBudget [] (around.names ++ platform.dirName :: names) := by
  obtain ⟨left, ways⟩ := around.leads.leads_alike around.clear
  rw [(ways _ alike.poolKept.outside).2 follow _ (List.cons_ne_nil _ _),
    (ways _ alike.soloKept.outside).2 follow _ (List.cons_ne_nil _ _)]
  exact walk_congr alike.agree follow (alike.keeps_down down)

theorem walks_home {place : Place} (down : ".." ∉ names)
    (walks : Walks solo.tree follow linkBudget [] (around.names ++ platform.dirName :: names)
      place) : around.site.root platform <+: place.spot := by
  have leads := alike.soloKept.leads
  have proper := platform.isProper_dirName
  by_cases own : names = [] ∧ follow = false
  · obtain ⟨rfl, rfl⟩ := own
    have here : place.spot = around.site.root platform := by
      rcases leads.one walks proper with ⟨rfl, -⟩ | ⟨node, rfl, -⟩ <;> rfl
    exact here ▸ List.prefix_rfl
  · obtain ⟨left, same⟩ := leads.onward
    have onward : Walks solo.tree follow left around.site.base
        ([platform.dirName] ++ names) place := by
      apply walks_of_walk
      rw [← walk_of_walks walks, same follow _ (List.cons_ne_nil _ _)]
      rfl
    refine onward.ends_home alike.enclosed (keeps_home alike.enclosed (fun _ => Site.not_others)
      proper.notHere proper.notUp rfl) down (fun _ => ?_)
    by_cases last : names = []
    · exact Or.inl (by simpa [last] using own)
    · exact Or.inr last

end Alike

section Changes

structure Inward (home : RealPath) (change : FileTree → FileTree) : Prop where
  outside : ∀ {tree place}, ¬ home <+: place → (change tree).get? place = tree.get? place
  alike : ∀ {first second : FileTree} {place}, first.get? place = second.get? place →
    (change first).get? place = (change second).get? place
  links : ∀ {tree : FileTree} {place target}, (change tree).get? place = some (.link target) →
    tree.get? place = some (.link target)

variable {home place : RealPath}

theorem inward_put {node : Node} (filled : home ≠ []) (inside : home <+: place)
    (notLink : ∀ target, node ≠ .link target) : Inward home (·.put place node) := by
  have notTop : place ≠ [] := by
    rintro rfl
    exact filled (List.prefix_nil.mp inside)
  constructor
  · intro tree other outside
    rw [get?_put _ _ _ _ notTop, if_neg]
    rintro rfl
    exact outside inside
  · intro first second other same
    rw [get?_put _ _ _ _ notTop, get?_put _ _ _ _ notTop, same]
  · intro tree other target found
    rw [get?_put _ _ _ _ notTop] at found
    split at found
    · exact absurd (Option.some.inj found) (notLink target)
    · exact found

theorem inward_erase (inside : home <+: place) : Inward home (·.erase place) := by
  constructor
  · intro tree other outside
    rw [get?_erase, if_neg]
    rintro ⟨rfl, -⟩
    exact outside inside
  · intro first second other same
    rw [get?_erase, get?_erase, same]
  · intro tree other target found
    exact part_erase tree place found

theorem inward_eraseBelow (inside : home <+: place) : Inward home (·.eraseBelow place) := by
  constructor
  · intro tree other outside
    rw [get?_eraseBelow, if_neg]
    intro below
    obtain ⟨rest, -, rfl⟩ := (isBelow_iff place other).mp below
    exact outside (inside.trans (List.prefix_append _ _))
  · intro first second other same
    rw [get?_eraseBelow, get?_eraseBelow, same]
  · intro tree other target found
    exact part_eraseBelow tree place found

theorem Alike.change {change : FileTree → FileTree} (alike : around.Alike platform pool solo)
    (inward : Inward (around.site.root platform) change) :
    around.Alike platform (pool.withTree (change pool.tree))
      (solo.withTree (change solo.tree)) := by
  have foreign {place : RealPath} (free : ¬ around.site.Taken place) :
      ¬ around.site.root platform <+: place := fun inside => free ⟨platform, alike.listed, inside⟩
  refine ⟨alike.listed, ⟨fun place free => ?_, alike.poolKept.workdir⟩,
    ⟨fun place free => ?_, alike.soloKept.workdir⟩, fun place own => ?_, ?_⟩
  · exact (inward.outside (foreign free)).trans (alike.poolKept.outside place free)
  · exact (inward.outside (foreign free)).trans (alike.soloKept.outside place free)
  · exact inward.alike (alike.agree place own)
  · exact alike.enclosed.mono (fun _ _ _ found => inward.links found)
      (fun _ _ outside => inward.outside outside) (fun _ => Site.not_others)

variable (around platform pool) in
/-- The same outcome on both disks, and nothing is changed outside of the staging root. -/
structure Joint {β : Type} (first second : β × Disk) : Prop where
  result : first.1 = second.1
  alike : around.Alike platform first.2 second.2
  outside : ∀ place, ¬ around.site.root platform <+: place →
    first.2.tree.get? place = pool.tree.get? place

theorem Alike.same {β : Type} (alike : around.Alike platform pool solo) {first second : β}
    (result : first = second) : around.Joint platform pool (first, pool) (second, solo) :=
  ⟨result, alike, fun _ _ => rfl⟩

theorem Alike.changed {β : Type} {change : FileTree → FileTree}
    (alike : around.Alike platform pool solo)
    (inward : Inward (around.site.root platform) change) (value : β) :
    around.Joint platform pool (value, pool.withTree (change pool.tree))
      (value, solo.withTree (change solo.tree)) :=
  ⟨rfl, alike.change inward, fun _ => inward.outside⟩

theorem Joint.after {β γ : Type} {first second : β × Disk} {third fourth : γ × Disk}
    (begins : around.Joint platform pool first second)
    (goes : around.Joint platform first.2 third fourth) :
    around.Joint platform pool third fourth :=
  ⟨goes.result, goes.alike, fun place outside =>
    (goes.outside place outside).trans (begins.outside place outside)⟩

end Changes

section Reading

variable (alike : around.Alike platform pool solo)
include alike

theorem Alike.locate_eq (below : around.Below platform path names) :
    pool.locate follow path = solo.locate follow path := by
  rw [locate, locate, below.absolute, below.absolute, below.steps, alike.walk_eq below.down]

theorem Alike.locate_home (below : around.Below platform path names) {place : Place}
    (located : solo.locate follow path = .ok place) :
    around.site.root platform <+: place.spot := by
  rw [locate, below.absolute, below.steps] at located
  obtain ⟨_, -, walked⟩ := bind_eq_ok_iff.mp located
  exact alike.walks_home below.down (walks_of_walk walked)

theorem Alike.agree_home {place : RealPath} (home : around.site.root platform <+: place) :
    pool.tree.get? place = solo.tree.get? place := alike.agree place (Site.not_others home)

theorem Alike.stat_eq (below : around.Below platform path names) :
    pool.stat path = solo.stat path := by
  rw [stat, stat, alike.locate_eq below]

theorem Alike.isDirectory_eq (below : around.Below platform path names) :
    pool.isDirectory path = solo.isDirectory path := by
  rw [isDirectory, isDirectory, alike.stat_eq below]

theorem Alike.readText_eq (below : around.Below platform path names) :
    pool.readText path = solo.readText path := by
  rw [readText, readText, Disk.read, Disk.read, alike.stat_eq below]

theorem Alike.list_eq (below : around.Below platform path names) :
    pool.list path = solo.list path := by
  rw [list, list, alike.stat_eq below]
  cases found : solo.stat path with
  | error cause => rfl
  | ok entry =>
      obtain ⟨place, node⟩ := entry
      cases node with
      | file content executable => rfl
      | link target => rfl
      | directory =>
          have home : around.site.root platform <+: place := by
            rw [stat] at found
            obtain ⟨spot, located, ends⟩ := bind_eq_ok_iff.mp found
            cases spot with
            | vacant directory name => cases ends
            | present other node =>
                cases ends
                exact alike.locate_home below located
          have listed : pool.tree.children place = solo.tree.children place :=
            children_congr (fun rest => alike.agree_home (home.trans (List.prefix_append _ _)))
          change Except.ok _ = Except.ok _
          rw [listed]

end Reading

section Working

variable (around platform) in
def own (names : List String) : Path := Path.ofReal (around.names ++ platform.dirName :: names)

variable (around platform) in
theorem stagingRoot_eq_own : around.settings.stagingRoot platform = around.own platform [] := by
  rw [Settings.stagingRoot, around.spelled]
  exact Path.ofReal_div_name (segments_of_proper around.proper)
    platform.isProper_dirName.toIsSegment

variable (around platform) in
theorem proper_own (proper : ∀ name ∈ names, IsProper name) :
    ∀ name ∈ around.names ++ platform.dirName :: names, IsProper name := by
  intro name listed
  rcases List.mem_append.mp listed with above | below
  · exact around.proper name above
  · rcases List.mem_cons.mp below with rfl | inside
    · exact platform.isProper_dirName
    · exact proper name inside

theorem below_own (proper : ∀ name ∈ names, IsProper name) :
    around.Below platform (around.own platform names) names :=
  ⟨fun _ => Path.startOf_ofReal _ _,
    Path.stepsOf_ofReal (segments_of_proper (proper_own around platform proper)),
    fun up => (proper _ up).notUp rfl⟩

variable (around platform) in
theorem own_ends (names : List String) :
    (names = [] ∧ around.names ++ platform.dirName :: names =
      around.names ++ [platform.dirName]) ∨
    ∃ front last, names = front ++ [last] ∧ around.names ++ platform.dirName :: names =
      (around.names ++ platform.dirName :: front) ++ [last] := by
  rcases names.eq_nil_or_concat with rfl | ⟨front, last, rfl⟩
  · exact Or.inl ⟨rfl, rfl⟩
  · exact Or.inr ⟨front, last, by simp, by simp⟩

variable (alike : around.Alike platform pool solo) (proper : ∀ name ∈ names, IsProper name)
include alike proper

theorem Alike.locateLast_eq :
    pool.locateLast (around.own platform names) = solo.locateLast (around.own platform names) := by
  have segments := segments_of_proper (proper_own around platform proper)
  rw [own]
  rcases own_ends around platform names with
    ⟨rfl, spelled⟩ | ⟨front, last, rfl, spelled⟩
  · rw [spelled] at segments ⊢
    rw [Disk.locateLast_eq segments, Disk.locateLast_eq segments,
      walk_of_walks alike.poolKept.leads, walk_of_walks alike.soloKept.leads]
  · rw [spelled] at segments ⊢
    rw [Disk.locateLast_eq segments, Disk.locateLast_eq segments, alike.walk_eq]
    exact fun up => (proper _ (List.mem_append_left _ up)).notUp rfl

theorem Alike.locateLast_home {last : Last}
    (located : solo.locateLast (around.own platform names) = .ok (some last)) :
    around.site.root platform <+: last.directory ++ [last.name] := by
  have segments := segments_of_proper (proper_own around platform proper)
  rw [own] at located
  rcases own_ends around platform names with
    ⟨rfl, spelled⟩ | ⟨front, final, rfl, spelled⟩
  · obtain ⟨directory, same, leads, -⟩ := locateLast_ok segments located
    cases same
    rw [leads.unique alike.soloKept.leads]
    exact List.prefix_rfl
  · rw [spelled] at segments located
    obtain ⟨directory, same, leads, -⟩ := locateLast_ok segments located
    cases same
    have down : ".." ∉ front := fun up => (proper _ (List.mem_append_left _ up)).notUp rfl
    exact (alike.walks_home down leads).trans (List.prefix_append _ _)

theorem Alike.makeDir : around.Joint platform pool
    (pool.makeDir (around.own platform names)) (solo.makeDir (around.own platform names)) := by
  unfold Disk.makeDir
  rw [alike.locateLast_eq proper]
  rcases located : solo.locateLast (around.own platform names) with cause | _ | last
  · exact alike.same rfl
  · exact alike.same rfl
  · have home := alike.locateLast_home proper located
    dsimp only
    rw [alike.agree_home home]
    split
    · exact alike.same rfl
    split
    · exact alike.same rfl
    split
    · exact alike.same rfl
    · exact alike.changed (inward_put (by simp [Site.root]) home (by simp)) _

theorem Alike.makeDirIfMissing : around.Joint platform pool
    (pool.makeDirIfMissing (around.own platform names))
    (solo.makeDirIfMissing (around.own platform names)) := by
  have made := alike.makeDir proper
  unfold Disk.makeDirIfMissing
  generalize pool.makeDir (around.own platform names) = first at made
  generalize solo.makeDir (around.own platform names) = second at made
  obtain ⟨result, poolLeft⟩ := first
  obtain ⟨_, soloLeft⟩ := second
  obtain rfl : result = _ := made.result
  rcases result with cause | ⟨⟩
  · cases cause
    case fileExists =>
      dsimp only
      rw [alike.isDirectory_eq (below_own proper)]
      split
      · exact ⟨rfl, made.alike, made.outside⟩
      · exact made
    all_goals exact made
  · exact made

theorem Alike.write (content : ByteArray) : around.Joint platform pool
    (pool.write (around.own platform names) content)
    (solo.write (around.own platform names) content) := by
  have filled : around.site.root platform ≠ [] := by simp [Site.root]
  unfold Disk.write
  rw [alike.locateLast_eq proper, alike.locate_eq (below_own proper)]
  rcases solo.locateLast (around.own platform names) with cause | _ | last
  · exact alike.same rfl
  · exact alike.same rfl
  · dsimp only
    split
    · exact alike.same rfl
    rcases located : solo.locate true (around.own platform names) with
      cause | ⟨place, node⟩ | ⟨directory, name⟩
    · exact alike.same rfl
    · have home := alike.locate_home (below_own proper) located
      cases node with
      | directory => exact alike.same rfl
      | link target => exact alike.same rfl
      | file old executable => exact alike.changed (inward_put filled home (by simp)) _
    · have home := alike.locate_home (below_own proper) located
      exact alike.changed (inward_put filled home (by simp)) _

theorem Alike.removeDir : around.Joint platform pool
    (pool.removeDir (around.own platform names)) (solo.removeDir (around.own platform names)) := by
  unfold Disk.removeDir
  rw [alike.locateLast_eq proper]
  rcases located : solo.locateLast (around.own platform names) with cause | _ | last
  · exact alike.same rfl
  · exact alike.same rfl
  · have home := alike.locateLast_home proper located
    have below : pool.tree.hasBelow (last.directory ++ [last.name]) =
        solo.tree.hasBelow (last.directory ++ [last.name]) :=
      hasBelow_congr (fun rest => alike.agree_home (home.trans (List.prefix_append _ _)))
    dsimp only
    rw [alike.agree_home home, below]
    split
    · exact alike.same rfl
    split
    · exact alike.same rfl
    split
    · exact alike.same rfl
    · split
      · exact alike.same rfl
      · exact alike.changed (inward_erase home) _
    · exact alike.same rfl

theorem Alike.removeTree : around.Joint platform pool
    (pool.removeTree (around.own platform names))
    (solo.removeTree (around.own platform names)) := by
  unfold Disk.removeTree
  rw [alike.locate_eq (below_own proper)]
  rcases located : solo.locate false (around.own platform names) with
    cause | ⟨place, node⟩ | ⟨directory, name⟩
  · exact alike.same rfl
  · have home : around.site.root platform <+: place :=
      alike.locate_home (below_own proper) located
    cases node with
    | file content executable => exact alike.same rfl
    | link target => exact alike.changed (inward_erase home) _
    | directory =>
        have emptied := alike.changed (inward_eraseBelow home) ()
        have removed := emptied.after (emptied.alike.removeDir proper)
        dsimp only at removed ⊢
        generalize (pool.withTree (pool.tree.eraseBelow place)).removeDir
          (around.own platform names) = first at removed
        generalize (solo.withTree (solo.tree.eraseBelow place)).removeDir
          (around.own platform names) = second at removed
        obtain ⟨result, poolLeft⟩ := first
        obtain ⟨_, soloLeft⟩ := second
        obtain rfl : result = _ := removed.result
        rcases result with cause | ⟨⟩
        · cases cause
          case notFound => exact ⟨rfl, removed.alike, removed.outside⟩
          all_goals exact removed
        · exact removed
  · exact alike.same rfl

end Working

section Making

-- Going up ends at the staging root at the latest, since the directory above it is there.
theorem Alike.makeFrom {pool solo : Disk} (alike : around.Alike platform pool solo)
    {up : List String}
    (proper : ∀ name ∈ up, IsProper name) : around.Joint platform pool
    (pool.makeFrom (Path.upwards (up ++ platform.dirName :: around.names.reverse)))
    (solo.makeFrom (Path.upwards (up ++ platform.dirName :: around.names.reverse))) := by
  have forward : ∀ name ∈ up.reverse, IsProper name :=
    fun name listed => proper name (List.mem_reverse.mp listed)
  have spelled : Path.ofReal (up ++ platform.dirName :: around.names.reverse).reverse =
      around.own platform up.reverse := by simp [own]
  have made := alike.makeDirIfMissing forward
  have after {result : Except IoCause Unit} {poolLeft soloLeft : Disk}
      (higher : around.Joint platform pool (result, poolLeft) (result, soloLeft)) :
      around.Joint platform pool (poolLeft.makeDirIfMissing (around.own platform up.reverse))
        (soloLeft.makeDirIfMissing (around.own platform up.reverse)) :=
    higher.after (higher.alike.makeDirIfMissing forward)
  cases up with
  | nil =>
      rw [List.nil_append] at spelled ⊢
      rw [Path.upwards, spelled]
      refine makeFrom_cons_both Joint.result made (fun missing => ?_) after
      have stops (left : Disk) :
          pool.makeDirIfMissing (around.own platform []) ≠ (.error .notFound, left) :=
        makeDirIfMissing_ne_notFound (proper_own around platform (by simp)) alike.poolKept.leads
      exact (stops _ (Prod.ext missing rfl)).elim
  | cons last up =>
      rw [List.cons_append] at spelled ⊢
      rw [Path.upwards, spelled]
      refine makeFrom_cons_both Joint.result made (fun _ => ?_) after
      exact alike.makeFrom (fun name listed => proper name (List.mem_cons_of_mem _ listed))

theorem Alike.createDirs (alike : around.Alike platform pool solo)
    (proper : ∀ name ∈ names, IsProper name) :
    around.Joint platform pool (pool.createDirs (around.own platform names))
      (solo.createDirs (around.own platform names)) := by
  have backwards : around.own platform names =
      Path.ofReal (names.reverse ++ platform.dirName :: around.names.reverse).reverse := by
    simp [own]
  have properBack : ∀ name ∈ names.reverse ++ platform.dirName :: around.names.reverse,
      IsProper name := by
    intro name listed
    refine proper_own around platform proper name ?_
    simpa [or_comm, or_left_comm] using listed
  rw [Disk.createDirs, Disk.createDirs, backwards, Path.ancestors_ofReal _ properBack]
  exact alike.makeFrom (fun name listed => proper name (List.mem_reverse.mp listed))

end Making

section Answering

variable (around platform) in
/-- A call at or below the staging root of a platform. -/
def Owns : DiskCall → Prop
  | .removeTree path | .createDirs path | .write path _ =>
      ∃ names, (∀ name ∈ names, IsProper name) ∧ path = around.own platform names
  | .readText path | .list path | .isDirectory path => ∃ names, around.Below platform path names
  | .isThere _ | .filesBelow _ => False

theorem Alike.answer {call : DiskCall} (alike : around.Alike platform pool solo)
    (owns : around.Owns platform call) :
    around.Joint platform pool (call.answer pool) (call.answer solo) := by
  cases call with
  | removeTree path =>
      obtain ⟨names, proper, rfl⟩ := owns
      exact alike.removeTree proper
  | createDirs path =>
      obtain ⟨names, proper, rfl⟩ := owns
      exact alike.createDirs proper
  | write path text =>
      obtain ⟨names, proper, rfl⟩ := owns
      exact alike.write proper _
  | readText path =>
      obtain ⟨names, below⟩ := owns
      exact alike.same (alike.readText_eq below)
  | list path =>
      obtain ⟨names, below⟩ := owns
      exact alike.same (alike.list_eq below)
  | isDirectory path =>
      obtain ⟨names, below⟩ := owns
      exact alike.same (alike.isDirectory_eq below)
  | isThere path => exact owns.elim
  | filesBelow path => exact owns.elim

theorem Joint.unseen {β : Type} {first second : β × Disk} {other : Platform} {theirs : Disk}
    (joint : around.Joint platform pool first second) (differ : platform ≠ other)
    (alike : around.Alike other pool theirs) : around.Alike other first.2 theirs := by
  refine ⟨alike.listed, joint.alike.poolKept, alike.soloKept, ?_, alike.enclosed⟩
  intro place own
  rw [joint.outside place (fun inside => own ⟨platform, joint.alike.listed, differ, inside⟩)]
  exact alike.agree place own

end Answering

end Surroundings

end PlatformBundle
