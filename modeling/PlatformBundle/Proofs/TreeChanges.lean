import Mathlib.Data.List.Induction
import PlatformBundle.Disk.Operations
import PlatformBundle.Proofs.KeyMaps
import PlatformBundle.Proofs.Walks
/-!
How a file tree changes. Work that adds directories and writes files leaves every directory and
every link as it was, so what a walk has led to before it leads to afterwards.
-/

namespace PlatformBundle

namespace FileTree

variable {tree : FileTree}

/-- Everything that stands in the tree stands in a directory of it. -/
def Grounded (tree : FileTree) : Prop :=
  ∀ place name, tree.get? (place ++ [name]) ≠ none → tree.get? place = some .directory

def Vacant (tree : FileTree) (top : RealPath) : Prop := ∀ rest, tree.get? (top ++ rest) = none

def Linkless (tree : FileTree) (top : RealPath) : Prop :=
  ∀ rest target, tree.get? (top ++ rest) ≠ some (.link target)

theorem get?_root (tree : FileTree) : tree.get? [] = some .directory := by
  rw [get?, if_pos rfl]

theorem mem_of_find {place : RealPath} {node : Node} {nodes : List (RealPath × Node)}
    (found : find place nodes = some node) : (place, node) ∈ nodes := by
  induction nodes with
  | nil => cases found
  | cons head rest ih =>
      obtain ⟨top, other⟩ := head
      rw [find] at found
      split at found
      · rename_i same
        cases found
        exact same ▸ List.mem_cons_self
      · exact List.mem_cons_of_mem _ (ih found)

theorem mem_nodes {place : RealPath} {node : Node} (filled : place ≠ [])
    (found : tree.get? place = some node) : (place, node) ∈ tree.nodes := by
  rw [get?, if_neg filled] at found
  exact mem_of_find found

theorem grounded_of_nodes (inside : ∀ entry ∈ tree.nodes,
    tree.get? entry.1.dropLast = some .directory) : tree.Grounded := by
  intro place name there
  obtain ⟨node, found⟩ := Option.ne_none_iff_exists'.mp there
  have above := inside _ (mem_nodes (by simp) found)
  rwa [List.dropLast_concat] at above

theorem isBelow_iff (top place : RealPath) :
    isBelow top place = true ↔ ∃ rest, rest ≠ [] ∧ place = top ++ rest := by
  rw [isBelow, Bool.and_eq_true, List.isPrefixOf_iff_prefix, bne_iff_ne]
  constructor
  · rintro ⟨⟨rest, rfl⟩, differ⟩
    exact ⟨rest, fun empty => differ (by rw [empty, List.append_nil]), rfl⟩
  · rintro ⟨rest, filled, rfl⟩
    exact ⟨List.prefix_append top rest, fun same => filled (by simpa using same)⟩

namespace Grounded

theorem above (grounded : tree.Grounded) (top rest : RealPath) (filled : rest ≠ [])
    (stands : tree.get? (top ++ rest) ≠ none) : tree.get? top = some .directory := by
  induction rest using List.reverseRecOn with
  | nil => exact absurd rfl filled
  | append_singleton front last ih =>
      rw [← List.append_assoc] at stands
      have within := grounded (top ++ front) last stands
      by_cases first : front = []
      · rwa [first, List.append_nil] at within
      · exact ih first (by rw [within]; simp)

theorem vacant (grounded : tree.Grounded) {top : RealPath} (free : tree.get? top = none) :
    tree.Vacant top := by
  intro rest
  by_cases here : rest = []
  · rw [here, List.append_nil, free]
  · by_cases stands : tree.get? (top ++ rest) = none
    · exact stands
    · have directory := grounded.above top rest here stands
      rw [free] at directory
      cases directory

theorem dropLast (grounded : tree.Grounded) {directory : RealPath}
    (stands : tree.get? directory = some .directory) :
    tree.get? directory.dropLast = some .directory := by
  rcases directory.eq_nil_or_concat with rfl | ⟨front, last, rfl⟩
  · exact stands
  · rw [List.concat_eq_append] at stands ⊢
    rw [List.dropLast_concat]
    exact grounded front last (by rw [stands]; simp)

-- A directory must not be replaced by something that can hold nothing.
theorem put (grounded : tree.Grounded) {directory : RealPath} {name : String} {node : Node}
    (stands : tree.get? directory = some .directory)
    (harmless : node = .directory ∨ tree.get? (directory ++ [name]) ≠ some .directory) :
    (tree.put (directory ++ [name]) node).Grounded := by
  intro place other there
  rw [get?_put _ _ _ _ (by simp)] at there ⊢
  by_cases self : place = directory ++ [name]
  · subst self
    rw [if_pos rfl]
    rw [if_neg (by simp)] at there
    have was := grounded _ other there
    rcases harmless with rfl | notDirectory
    · rfl
    · exact absurd was notDirectory
  · rw [if_neg self]
    by_cases new : place ++ [other] = directory ++ [name]
    · obtain ⟨rfl, -⟩ := List.append_inj' new rfl
      exact stands
    · rw [if_neg new] at there
      exact grounded place other there

theorem erase (grounded : tree.Grounded) {top : RealPath}
    (alone : ∀ name, tree.get? (top ++ [name]) = none) : (tree.erase top).Grounded := by
  intro place name there
  rw [get?_erase] at there ⊢
  split at there
  · exact absurd rfl there
  · have within := grounded place name there
    rw [if_neg ?_]
    · exact within
    · rintro ⟨rfl, -⟩
      exact there (alone name)

theorem eraseBelow (grounded : tree.Grounded) (top : RealPath) :
    (tree.eraseBelow top).Grounded := by
  intro place name there
  rw [get?_eraseBelow] at there ⊢
  split at there
  · exact absurd rfl there
  · rename_i outside
    rw [if_neg ?_]
    · exact grounded place name there
    · intro below
      obtain ⟨rest, filled, rfl⟩ := (isBelow_iff top place).mp below
      exact outside ((isBelow_iff top _).mpr ⟨rest ++ [name], by simp, by simp⟩)

end Grounded

/-- The directories and links of a tree stay, and so does what stands at the spared places. -/
structure Grows (spared : RealPath → Prop) (before after : FileTree) : Prop where
  directory : ∀ {place}, before.get? place = some .directory → after.get? place = some .directory
  link : ∀ {place target}, after.get? place = some (.link target) ↔
    before.get? place = some (.link target)
  kept : ∀ {place node}, spared place → before.get? place = some node →
    after.get? place = some node

namespace Grows

variable {spared : RealPath → Prop} {before middle after : FileTree}

theorem refl (spared : RealPath → Prop) (tree : FileTree) : Grows spared tree tree :=
  ⟨id, Iff.rfl, fun _ => id⟩

theorem trans (first : Grows spared before middle) (second : Grows spared middle after) :
    Grows spared before after where
  directory := fun stands => second.directory (first.directory stands)
  link := second.link.trans first.link
  kept := fun safe stands => second.kept safe (first.kept safe stands)

theorem weaken {fewer : RealPath → Prop} (grows : Grows spared before after)
    (implies : ∀ place, fewer place → spared place) : Grows fewer before after where
  directory := grows.directory
  link := grows.link
  kept := fun safe => grows.kept (implies _ safe)

theorem linkless (grows : Grows spared before after) {top : RealPath}
    (clear : before.Linkless top) : after.Linkless top :=
  fun rest target found => clear rest target (grows.link.mp found)

theorem put_directory {place : RealPath} (inside : place ≠ [])
    (free : before.get? place = none) : Grows spared before (before.put place .directory) := by
  constructor
  · intro other stands
    rw [get?_put _ _ _ _ inside]
    split
    · rfl
    · exact stands
  · intro other target
    rw [get?_put _ _ _ _ inside]
    split
    · rename_i same
      rw [same, free]
      simp
    · rfl
  · intro other node _ stands
    rw [get?_put _ _ _ _ inside, if_neg ?_]
    · exact stands
    · rintro rfl
      rw [free] at stands
      cases stands

theorem put_file {place : RealPath} {content : ByteArray} {executable : Bool} (inside : place ≠ [])
    (notDirectory : before.get? place ≠ some .directory)
    (notLink : ∀ target, before.get? place ≠ some (.link target))
    (exposed : ¬ spared place) :
    Grows spared before (before.put place (.file content executable)) := by
  constructor
  · intro other stands
    rw [get?_put _ _ _ _ inside, if_neg ?_]
    · exact stands
    · rintro rfl
      exact notDirectory stands
  · intro other target
    rw [get?_put _ _ _ _ inside]
    split
    · rename_i same
      rw [same]
      simpa using notLink target
    · rfl
  · intro other node safe stands
    rw [get?_put _ _ _ _ inside, if_neg ?_]
    · exact stands
    · rintro rfl
      exact exposed safe

end Grows

def Part (smaller larger : FileTree) : Prop :=
  ∀ ⦃place node⦄, smaller.get? place = some node → larger.get? place = some node

theorem part_erase (tree : FileTree) (top : RealPath) : Part (tree.erase top) tree := by
  intro place node found
  rw [get?_erase] at found
  split at found
  · cases found
  · exact found

theorem part_eraseBelow (tree : FileTree) (top : RealPath) : Part (tree.eraseBelow top) tree := by
  intro place node found
  rw [get?_eraseBelow] at found
  split at found
  · cases found
  · exact found

theorem Part.linkless {smaller larger : FileTree} (part : Part smaller larger) {top : RealPath}
    (clear : larger.Linkless top) : smaller.Linkless top :=
  fun rest target found => clear rest target (part found)

theorem Vacant.linkless {top : RealPath} (vacant : tree.Vacant top) : tree.Linkless top := by
  intro rest target found
  rw [vacant rest] at found
  cases found

theorem Linkless.below {top : RealPath} (clear : tree.Linkless top) (more : RealPath) :
    tree.Linkless (top ++ more) := by
  intro rest target
  rw [List.append_assoc]
  exact clear (more ++ rest) target

section Listing

theorem find_ne_none_iff {place : RealPath} {nodes : List (RealPath × Node)} :
    find place nodes ≠ none ↔ ∃ entry ∈ nodes, entry.1 = place := by
  induction nodes with
  | nil => simp [find]
  | cons head rest ih =>
      rw [find]
      by_cases same : head.1 = place
      · simp [same]
      · simp [same, ih]

theorem listed_below_iff {top : RealPath} {kind : RealPath → Prop} :
    (∃ entry ∈ tree.nodes, isBelow top entry.1 = true ∧ kind entry.1) ↔
      ∃ rest, rest ≠ [] ∧ tree.get? (top ++ rest) ≠ none ∧ kind (top ++ rest) := by
  constructor
  · rintro ⟨entry, listed, below, holds⟩
    obtain ⟨rest, filled, spelled⟩ := (isBelow_iff _ _).mp below
    rw [spelled] at holds
    refine ⟨rest, filled, ?_, holds⟩
    rw [get?, if_neg (by simp [filled]), find_ne_none_iff]
    exact ⟨entry, listed, spelled⟩
  · rintro ⟨rest, filled, stands, holds⟩
    rw [get?, if_neg (by simp [filled]), find_ne_none_iff] at stands
    obtain ⟨entry, listed, spelled⟩ := stands
    exact ⟨entry, listed, (isBelow_iff _ _).mpr ⟨rest, filled, spelled⟩, spelled ▸ holds⟩

theorem hasBelow_congr {first second : FileTree} {top : RealPath}
    (agree : ∀ rest, first.get? (top ++ rest) = second.get? (top ++ rest)) :
    first.hasBelow top = second.hasBelow top := by
  have stands (tree : FileTree) : tree.hasBelow top = true ↔
      ∃ rest, rest ≠ [] ∧ tree.get? (top ++ rest) ≠ none ∧ True := by
    rw [← @listed_below_iff tree top (fun _ => True)]
    simp [hasBelow]
  rw [Bool.eq_iff_iff, stands, stands]
  simp only [agree]

theorem children_congr {first second : FileTree} {top : RealPath}
    (agree : ∀ rest, first.get? (top ++ rest) = second.get? (top ++ rest)) :
    first.children top = second.children top := by
  have stands (tree : FileTree) (name : String) : name ∈ tree.nodes.filterMap (fun entry =>
      if isBelow top entry.1 then (entry.1.drop top.length).head? else none) ↔
      ∃ rest, rest ≠ [] ∧ tree.get? (top ++ rest) ≠ none ∧
        ((top ++ rest).drop top.length).head? = some name := by
    rw [← @listed_below_iff tree top (fun place => (place.drop top.length).head? = some name),
      List.mem_filterMap]
    refine exists_congr (fun entry => and_congr_right (fun _ => ?_))
    split <;> simp_all
  rw [children, children]
  refine congrArg KeyMap.keys (KeySet.ext_contains (fun name => ?_))
  rw [KeySet.contains_ofKeys, KeySet.contains_ofKeys, stands, stands]
  simp only [agree]

end Listing

end FileTree

namespace Disk

open FileTree

def Place.spot : Place → RealPath
  | .present place _ => place
  | .vacant directory name => directory ++ [name]

def Place.Stands (tree : FileTree) : Place → Prop
  | .present place node => tree.get? place = some node
  | .vacant directory name => tree.get? directory = some .directory ∧
      tree.get? (directory ++ [name]) = none

namespace Walks

variable {tree before after : FileTree} {follow : Bool} {budget : Nat} {directory : RealPath}
  {steps : List String} {place : Place}

theorem stands (walks : Walks tree follow budget directory steps place)
    (grounded : tree.Grounded) (starts : tree.get? directory = some .directory) :
    place.Stands tree := by
  induction walks with
  | done => exact starts
  | here onward ih => exact ih starts
  | up onward ih => exact ih (grounded.dropLast starts)
  | vacant entry free => exact ⟨starts, free⟩
  | file entry found => exact found
  | link entry found ends => exact found
  | enter entry found onward ih => exact ih found
  | @jump _ _ _ target _ _ entry found goes onward ih =>
      apply ih
      unfold startOf
      split
      · exact tree.get?_root
      · exact starts

theorem grow {spared : RealPath → Prop} {spot : RealPath} {node : Node}
    (grows : Grows spared before after) (safe : spared spot ∨ node = .directory)
    (walks : Walks before follow budget directory steps (.present spot node)) :
    Walks after follow budget directory steps (.present spot node) := by
  generalize ends : Place.present spot node = place at walks
  induction walks with
  | done =>
      cases ends
      exact .done
  | here onward ih => exact .here (ih ends)
  | up onward ih => exact .up (ih ends)
  | vacant entry free => cases ends
  | file entry found =>
      cases ends
      rcases safe with safe | wrong
      · exact .file entry (grows.kept safe found)
      · cases wrong
  | link entry found stays =>
      cases ends
      exact .link entry (grows.link.mpr found) stays
  | enter entry found onward ih => exact .enter entry (grows.directory found) (ih ends)
  | jump entry found goes onward ih => exact .jump entry (grows.link.mpr found) goes (ih ends)

theorem of_part {spot : RealPath} {node : Node} (part : Part before after)
    (walks : Walks before follow budget directory steps (.present spot node)) :
    Walks after follow budget directory steps (.present spot node) := by
  generalize ends : Place.present spot node = place at walks
  induction walks with
  | done =>
      cases ends
      exact .done
  | here onward ih => exact .here (ih ends)
  | up onward ih => exact .up (ih ends)
  | vacant entry free => cases ends
  | file entry found =>
      cases ends
      exact .file entry (part found)
  | link entry found stays =>
      cases ends
      exact .link entry (part found) stays
  | enter entry found onward ih => exact .enter entry (part found) (ih ends)
  | jump entry found goes onward ih => exact .jump entry (part found) goes (ih ends)

-- A walk through a place that was free, or held a file, ends there.
theorem fill {spared : RealPath → Prop} {content : ByteArray} {executable : Bool}
    (grows : Grows spared before after)
    (filled : after.get? place.spot = some (.file content executable))
    (walks : Walks before true budget directory steps place)
    (notDirectory : ∀ spot, place ≠ .present spot .directory) :
    Walks after true budget directory steps (.present place.spot (.file content executable)) := by
  induction walks with
  | done => exact absurd rfl (notDirectory _)
  | here onward ih => exact .here (ih filled notDirectory)
  | up onward ih => exact .up (ih filled notDirectory)
  | vacant entry free => exact .file entry filled
  | file entry found => exact .file entry filled
  | link entry found stays => cases stays
  | enter entry found onward ih =>
      exact .enter entry (grows.directory found) (ih filled notDirectory)
  | jump entry found goes onward ih =>
      exact .jump entry (grows.link.mpr found) goes (ih filled notDirectory)

theorem append {first : List String} {middle : RealPath}
    (walks : Walks tree true budget directory first (.present middle .directory)) :
    ∃ left, ∀ follow rest, rest ≠ [] → walk tree follow budget directory (first ++ rest) =
      walk tree follow left middle rest := by
  generalize ends : Place.present middle .directory = place at walks
  induction walks with
  | done =>
      cases ends
      exact ⟨_, fun _ _ _ => rfl⟩
  | here onward ih =>
      obtain ⟨left, same⟩ := ih ends
      refine ⟨left, ?_⟩
      intro follow rest filled
      rw [List.cons_append, walk_here, same follow rest filled]
  | up onward ih =>
      obtain ⟨left, same⟩ := ih ends
      refine ⟨left, ?_⟩
      intro follow rest filled
      rw [List.cons_append, walk_up, same follow rest filled]
  | vacant entry free => cases ends
  | file entry found => cases ends
  | link entry found stays => cases stays
  | enter entry found onward ih =>
      obtain ⟨left, same⟩ := ih ends
      refine ⟨left, ?_⟩
      intro follow rest filled
      rw [List.cons_append, walk_name _ _ _ _ entry, walkName, found]
      exact same follow rest filled
  | @jump _ _ _ _ others _ entry found more onward ih =>
      obtain ⟨left, same⟩ := ih ends
      refine ⟨left, ?_⟩
      intro follow rest filled
      have leaves : ((others ++ rest).isEmpty && !follow) = false := by simp [filled]
      rw [List.cons_append, walk_name _ _ _ _ entry, walkName, found]
      simp only [leaves, Bool.false_eq_true, if_false]
      rw [← List.append_assoc, same follow rest filled]

theorem eq_nil_of_one_eq_append {name : String} {first rest : List String}
    (cut : [name] = first ++ rest) (filled : rest ≠ []) : first = [] := by
  cases first with
  | nil => rfl
  | cons other others =>
      exact absurd (List.append_eq_nil_iff.mp (List.cons.inj cut).2.symm).2 filled

theorem front (walks : Walks tree follow budget directory steps place) {first rest : List String}
    (cut : steps = first ++ rest) (filled : rest ≠ []) :
    ∃ middle, Walks tree true budget directory first (.present middle .directory) := by
  induction walks generalizing first with
  | done => exact absurd (List.append_eq_nil_iff.mp cut.symm).2 filled
  | here onward ih =>
      cases first with
      | nil => exact ⟨_, .done⟩
      | cons name others =>
          obtain ⟨rfl, rest⟩ := List.cons.inj cut
          obtain ⟨middle, onward⟩ := ih rest
          exact ⟨middle, .here onward⟩
  | up onward ih =>
      cases first with
      | nil => exact ⟨_, .done⟩
      | cons name others =>
          obtain ⟨rfl, rest⟩ := List.cons.inj cut
          obtain ⟨middle, onward⟩ := ih rest
          exact ⟨middle, .up onward⟩
  | vacant entry free =>
      rw [eq_nil_of_one_eq_append cut filled]
      exact ⟨_, .done⟩
  | file entry found =>
      rw [eq_nil_of_one_eq_append cut filled]
      exact ⟨_, .done⟩
  | link entry found stays =>
      rw [eq_nil_of_one_eq_append cut filled]
      exact ⟨_, .done⟩
  | enter entry found onward ih =>
      cases first with
      | nil => exact ⟨_, .done⟩
      | cons name others =>
          obtain ⟨rfl, rest⟩ := List.cons.inj cut
          obtain ⟨middle, onward⟩ := ih rest
          exact ⟨middle, .enter entry found onward⟩
  | jump entry found goes onward ih =>
      cases first with
      | nil => exact ⟨_, .done⟩
      | cons name others =>
          obtain ⟨rfl, rfl⟩ := List.cons.inj cut
          obtain ⟨middle, onward⟩ := ih (List.append_assoc _ _ _).symm
          exact ⟨middle, .jump entry found (Or.inr rfl) onward⟩

/-- Where no link stands, a walk ends at the place that its names spell. -/
theorem spot_of_linkless (walks : Walks tree follow budget directory steps place)
    (names : ∀ name ∈ steps, name ≠ "." ∧ name ≠ "..")
    (clear : ∀ front target, front ≠ [] → front <+: steps →
      tree.get? (directory ++ front) ≠ some (.link target)) :
    place.spot = directory ++ steps := by
  induction walks with
  | done => simp [Place.spot]
  | here onward ih => exact absurd rfl (names "." List.mem_cons_self).1
  | up onward ih => exact absurd rfl (names ".." List.mem_cons_self).2
  | vacant entry free => rfl
  | file entry found => rfl
  | link entry found stays => rfl
  | @enter _ _ name rest _ entry found onward ih =>
      rw [ih (fun other later => names other (List.mem_cons_of_mem _ later)) ?_]
      · simp
      · intro front target filled inside
        rw [List.append_assoc]
        exact clear (name :: front) target (by simp) (by simpa using inside)
  | @jump _ _ name target rest _ entry found goes onward ih =>
      exact absurd found (clear [name] target (by simp) (by simp))

theorem one {last : String} (walks : Walks tree false budget directory [last] place)
    (notHere : last ≠ ".") (notUp : last ≠ "..") :
    place.spot = directory ++ [last] ∧
      (place = .vacant directory last ∧ tree.get? (directory ++ [last]) = none ∨
        ∃ node, place = .present (directory ++ [last]) node ∧
          tree.get? (directory ++ [last]) = some node) := by
  cases walks with
  | here onward => exact absurd rfl notHere
  | up onward => exact absurd rfl notUp
  | vacant entry free => exact ⟨rfl, Or.inl ⟨rfl, free⟩⟩
  | file entry found => exact ⟨rfl, Or.inr ⟨_, rfl, found⟩⟩
  | link entry found stays => exact ⟨rfl, Or.inr ⟨_, rfl, found⟩⟩
  | enter entry found onward =>
      cases onward with
      | done => exact ⟨rfl, Or.inr ⟨_, rfl, found⟩⟩
  | jump entry found goes onward =>
      rcases goes with more | followed
      · exact absurd rfl more
      · cases followed

end Walks

end Disk

end PlatformBundle
