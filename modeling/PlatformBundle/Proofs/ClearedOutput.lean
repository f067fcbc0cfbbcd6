import PlatformBundle.Proofs.OpenWays
import PlatformBundle.Proofs.StagingRoot
import PlatformBundle.Proofs.Straying
/-!
What the preparation of a staging root leaves. The directories of the sources and of the chunks are
there and nothing is in them, and everything else stands as before. This needs that the way to the
root does not go through what is cleared: it could not be walked again otherwise.
-/

namespace PlatformBundle

open FileTree

namespace Disk

variable {tree after : FileTree} {disk left : Disk} {names : List String} {last : String}
  {place top : RealPath}

/-- The names lead to a place, whatever stands at the places of some kind. -/
def Steady (tree : FileTree) (names : List String) (place : RealPath) (kind : RealPath → Prop) :
    Prop :=
  ∀ other : FileTree, (∀ spot, ¬ kind spot → other.get? spot = tree.get? spot) →
    LeadsTo other names place

namespace Steady

variable {kind fewer : RealPath → Prop}

theorem of_clear (leads : LeadsTo tree names place) (clear : ¬ Meets tree kind [] names) :
    Steady tree names place kind := by
  obtain ⟨left, alike⟩ := Walks.leads_alike leads clear
  exact fun other agree => (alike other agree).1

theorem leads (steady : Steady tree names place kind) : LeadsTo tree names place :=
  steady tree (fun _ _ => rfl)

theorem change (steady : Steady tree names place kind)
    (agree : ∀ spot, ¬ kind spot → after.get? spot = tree.get? spot) :
    Steady after names place kind :=
  fun other same => steady other (fun spot free => (same spot free).trans (agree spot free))

theorem weaken (steady : Steady tree names place kind) (implies : ∀ spot, fewer spot → kind spot) :
    Steady tree names place fewer :=
  fun other same => steady other (fun spot free => same spot (fun less => free (implies spot less)))

end Steady

theorem hasBelow_eraseBelow (tree : FileTree) (top : RealPath) :
    (tree.eraseBelow top).hasBelow top = false := by
  simp [hasBelow, eraseBelow, without]

theorem within_iff {spot : RealPath} :
    top <+: spot ↔ spot = top ∨ isBelow top spot = true := by
  rw [isBelow_iff]
  constructor
  · rintro ⟨rest, rfl⟩
    by_cases here : rest = []
    · exact Or.inl (by rw [here, List.append_nil])
    · exact Or.inr ⟨rest, here, rfl⟩
  · rintro (rfl | ⟨rest, -, rfl⟩)
    · exact List.prefix_rfl
    · exact List.prefix_append _ _

section Clearing

variable (proper : ∀ name ∈ names ++ [last], IsProper name) (grounded : disk.tree.Grounded)
  (steady : Steady disk.tree names place (fun spot => place ++ [last] <+: spot))
include proper grounded steady

-- Work that ends well has looked the last name up, so neither it nor the path is too long.
omit grounded in
theorem removeTree_entry {result : Except IoCause Unit}
    (removed : disk.removeTree (Path.ofReal (names ++ [last])) = (result, left))
    (fine : result = .ok () ∨ result = .error .notFound) :
    checkText (Path.ofReal (names ++ [last])).text = .ok () ∧ IsEntryName last := by
  have own := proper last (by simp)
  have checked : checkText (Path.ofReal (names ++ [last])).text = .ok () := by
    cases text : checkText (Path.ofReal (names ++ [last])).text with
    | ok => rfl
    | error cause =>
        rw [removeTree_unchecked text] at removed
        cases removed
        rcases fine with wrong | missing
        · cases wrong
        · cases missing
          exact absurd text (checkText_ofReal_ne_notFound _)
  refine ⟨checked, own.notHere, own.notUp, ?_⟩
  by_contra long
  obtain ⟨budget, located⟩ := locate_last proper steady.leads checked
  rw [removeTree, located, walk_longName _ _ _ _ own.notHere own.notUp (by omega)] at removed
  cases removed
  rcases fine with wrong | wrong <;> cases wrong

-- The way is walked again once the directory is empty.
omit grounded in
theorem removeDir_emptied (checked : checkText (Path.ofReal (names ++ [last])).text = .ok ())
    (found : disk.tree.get? (place ++ [last]) = some .directory) :
    Disk.removeDir (disk.withTree (disk.tree.eraseBelow (place ++ [last])))
        (Path.ofReal (names ++ [last])) =
      (.ok (), disk.withTree ((disk.tree.eraseBelow (place ++ [last])).erase
        (place ++ [last]))) := by
  have own := proper last (by simp)
  have leads : LeadsTo (disk.tree.eraseBelow (place ++ [last])) names place := by
    refine steady _ (fun other outside => ?_)
    rw [get?_eraseBelow, if_neg (fun below => outside (within_iff.mpr (Or.inr below)))]
  have self : isBelow (place ++ [last]) (place ++ [last]) = false := by simp [isBelow]
  have there : (disk.tree.eraseBelow (place ++ [last])).get? (place ++ [last]) =
      some .directory := by
    rw [get?_eraseBelow, self, if_neg (by simp), found]
  rw [removeDir, locateLast_of_leadsTo (segments_of_proper proper) leads checked]
  simp [own.notHere, own.notUp, withTree, there, hasBelow_eraseBelow]

theorem removeTree_clears {result : Except IoCause Unit}
    (removed : disk.removeTree (Path.ofReal (names ++ [last])) = (result, left))
    (fine : result = .ok () ∨ result = .error .notFound) (spot : RealPath) :
    left.tree.get? spot = if place ++ [last] <+: spot then none else disk.tree.get? spot := by
  obtain ⟨checked, entry⟩ := removeTree_entry proper steady removed fine
  obtain ⟨budget, located⟩ := locate_last proper steady.leads checked
  rw [removeTree, located, walk_name _ _ _ _ entry, walkName] at removed
  rcases found : disk.tree.get? (place ++ [last]) with _ | _ | _ | target
  -- Nothing was there, and nothing is below a place where nothing is.
  · rw [found] at removed
    cases removed
    split
    · rename_i within
      obtain ⟨rest, rfl⟩ := within
      exact grounded.vacant found rest
    · rfl
  · rw [found] at removed
    dsimp only at removed
    rw [walk_nil] at removed
    dsimp only at removed
    rw [removeDir_emptied proper steady checked found] at removed
    cases removed
    change ((disk.tree.eraseBelow (place ++ [last])).erase (place ++ [last])).get? spot = _
    rw [get?_erase, get?_eraseBelow]
    by_cases here : spot = place ++ [last]
    · simp [here]
    · simp [here, within_iff]
  · rw [found] at removed
    cases removed
    rcases fine with wrong | wrong <;> cases wrong
  -- A link is taken away itself, and as it is no directory nothing was below it.
  · rw [found] at removed
    cases removed
    change (disk.tree.erase (place ++ [last])).get? spot = _
    rw [get?_erase]
    by_cases here : spot = place ++ [last]
    · simp [here]
    · by_cases within : place ++ [last] <+: spot
      · rw [if_neg (by simp [here]), if_pos within]
        by_contra stands
        obtain ⟨rest, rfl⟩ := within
        have directory := grounded.above _ rest (by rintro rfl; simp at here) stands
        rw [found] at directory
        cases directory
      · rw [if_neg (by simp [here]), if_neg within]

theorem remakeDir_clears
    (remade : (Files.remakeDir (Path.ofReal (names ++ [last]))).onDisk disk = (.ok (), left))
    (spot : RealPath) : left.tree.get? spot =
      if spot = place ++ [last] then some .directory
      else if place ++ [last] <+: spot then none else disk.tree.get? spot := by
  obtain ⟨removed, remove, fine, make⟩ := remakeDir_ok remade
  have gone := removeTree_clears proper grounded steady remove fine
  have leads : LeadsTo removed.tree names place := by
    refine steady _ (fun other outside => ?_)
    rw [gone, if_neg outside]
  have free : removed.tree.get? (place ++ [last]) = none := by
    rw [gone, if_pos List.prefix_rfl]
  have checked := checkText_of_made proper make
  rw [createDirs_of_leads proper leads, makeDirIfMissing_free proper checked leads free] at make
  split at make
  · cases make
  · cases make
    change (removed.tree.put (place ++ [last]) .directory).get? spot = _
    rw [get?_put _ _ _ _ (by simp)]
    split
    · rfl
    · exact gone spot

end Clearing

end Disk

end PlatformBundle
