import PlatformBundle.Proofs.ClearedOutput
import PlatformBundle.Proofs.TwinDisks
/-!
The places where a pass over a batch puts something, and staging roots that keep their place
whatever stands there. A root that is fit is walked to without looking up any of them; it stays fit
when only they have changed, and one that has to be made is fit as well.
-/

namespace PlatformBundle

open FileTree Disk

/-- Where a pass clears what earlier ones have put out, for a staging root at `top`. -/
def Swept (top spot : RealPath) : Prop :=
  top ++ [packagesDir] <+: spot ∨ top ++ [builtDir] <+: spot

instance (top spot : RealPath) : Decidable (Swept top spot) :=
  inferInstanceAs (Decidable (_ ∨ _))

/-- Where a pass puts what it stages and bundles. -/
def Output (top spot : RealPath) : Prop := Swept top spot ∨ spot = top ++ [manifestFile]

section Places

variable {top spot : RealPath}

theorem apart_of_names {first second : String} (differ : first ≠ second)
    (inside : top ++ [first] <+: spot) : ¬ top ++ [second] <+: spot := by
  obtain ⟨rest, rfl⟩ := inside
  intro other
  rw [List.append_assoc, List.prefix_append_right_inj, List.singleton_append,
    List.cons_prefix_cons] at other
  exact differ other.1.symm

theorem packagesDir_ne_builtDir : packagesDir ≠ builtDir := by decide

theorem packagesDir_ne_manifestFile : packagesDir ≠ manifestFile := by decide

theorem builtDir_ne_manifestFile : builtDir ≠ manifestFile := by decide

theorem not_swept_manifest : ¬ Swept top (top ++ [manifestFile]) := by
  rintro (inside | inside)
  · exact apart_of_names packagesDir_ne_manifestFile inside List.prefix_rfl
  · exact apart_of_names builtDir_ne_manifestFile inside List.prefix_rfl

theorem not_output_above (higher : spot <+: top) : ¬ Output top spot := by
  have shorter := higher.length_le
  rintro ((inside | inside) | rfl)
  · have longer := inside.length_le
    rw [List.length_append, List.length_singleton] at longer
    omega
  · have longer := inside.length_le
    rw [List.length_append, List.length_singleton] at longer
    omega
  · rw [List.length_append, List.length_singleton] at shorter
    omega

end Places

namespace Disk

def RootAt (disk : Disk) (root : Path) (top : RealPath) : Prop :=
  disk.locate true root = .ok (.present top .directory)

/-- The manifest at the top is a file or missing, and the way to the staging root does not go
through what a pass clears. -/
structure FitRoot (disk : Disk) (root : Path) : Prop where
  manifest : ∀ top, disk.RootAt root top → View.Writable disk.tree.get? (top ++ [manifestFile])
  way : ∀ top, disk.RootAt root top → ¬ Meets disk.tree (Swept top) [] (stepsOf root.text)

section Roots

variable {disk ensured first second : Disk} {names : List String} {top : RealPath}

theorem rootAt_iff (segments : ∀ name ∈ names, IsSegment name) :
    disk.RootAt (Path.ofReal names) top ↔
      checkText (Path.ofReal names).text = .ok () ∧ LeadsTo disk.tree names top :=
  locate_ok_iff segments

theorem RootAt.unique {root : Path} {other : RealPath} (here : disk.RootAt root top)
    (there : disk.RootAt root other) : top = other := by
  rw [RootAt, here] at there
  cases there
  rfl

theorem FitRoot.clear (segments : ∀ name ∈ names, IsSegment name)
    (fit : disk.FitRoot (Path.ofReal names)) (here : disk.RootAt (Path.ofReal names) top) :
    ¬ Meets disk.tree (Output top) [] names := by
  have leads := ((rootAt_iff segments).mp here).2
  intro meets
  rcases meets.or with swept | manifest
  · have way := fit.way top here
    rw [Path.stepsOf_ofReal segments] at way
    exact way swept
  · obtain ⟨met, rfl, stands, notFile⟩ := leads.meets_found manifest
    obtain ⟨node, found⟩ := Option.ne_none_iff_exists'.mp stands
    obtain ⟨content, executable, rfl⟩ := fit.manifest top here node found
    exact notFile content executable found

/-- A root that is fit stays where it is, whatever a pass puts out. -/
theorem FitRoot.steady (segments : ∀ name ∈ names, IsSegment name)
    (fit : disk.FitRoot (Path.ofReal names)) (here : disk.RootAt (Path.ofReal names) top) :
    Steady disk.tree names top (Output top) :=
  .of_clear ((rootAt_iff segments).mp here).2 (fit.clear segments here)

theorem fitRoot_of_linkless (proper : ∀ name ∈ names, IsProper name)
    (linkless : disk.tree.Linkless [])
    (manifest : View.Writable disk.tree.get? (names ++ [manifestFile])) :
    disk.FitRoot (Path.ofReal names) := by
  have segments := segments_of_proper proper
  have here : ∀ {top}, disk.RootAt (Path.ofReal names) top → top = names := by
    intro top root
    have walks := ((rootAt_iff segments).mp root).2
    exact Walks.spot_of_linkless walks (fun name listed => ⟨(proper name listed).notHere,
      (proper name listed).notUp⟩) (fun front target _ _ => linkless front target)
  constructor
  · intro top root
    rwa [here root]
  · intro top root meets
    rw [here root, Path.stepsOf_ofReal segments] at meets
    obtain ⟨front, inside, met⟩ := meets.front linkless (fun name listed =>
      ⟨(proper name listed).notHere, (proper name listed).notUp⟩)
    exact not_output_above inside (Or.inl met)

/-- A staging root that is there or has been made, and holds what it held. -/
structure Ensured (before after : Disk) (names : List String) (top : RealPath) : Prop where
  grounded : after.tree.Grounded
  checked : checkText (Path.ofReal names).text = .ok ()
  leads : LeadsTo after.tree names top
  clear : ¬ Meets after.tree (Output top) [] names
  manifest : View.Writable after.tree.get? (top ++ [manifestFile])
  same : ∀ rest, rest ≠ [] → after.tree.get? (top ++ rest) = before.tree.get? (top ++ rest)
  either : before.RootAt (Path.ofReal names) top ∨
    ∀ other, ¬ before.RootAt (Path.ofReal names) other

namespace Ensured

theorem of_fit (segments : ∀ name ∈ names, IsSegment name) (grounded : disk.tree.Grounded)
    (fit : disk.FitRoot (Path.ofReal names)) (here : disk.RootAt (Path.ofReal names) top) :
    Ensured disk disk names top := by
  obtain ⟨checked, leads⟩ := (rootAt_iff segments).mp here
  exact ⟨grounded, checked, leads, fit.clear segments here, fit.manifest top here, fun _ _ => rfl,
    Or.inl here⟩

theorem steady (root : Ensured disk ensured names top) :
    Steady ensured.tree names top (Output top) := .of_clear root.leads root.clear

theorem fit_after (segments : ∀ name ∈ names, IsSegment name)
    (root : Ensured disk ensured names top)
    (agree : ∀ spot, ¬ Output top spot → second.tree.get? spot = ensured.tree.get? spot)
    (manifest : View.Writable second.tree.get? (top ++ [manifestFile])) :
    second.RootAt (Path.ofReal names) top ∧ second.FitRoot (Path.ofReal names) := by
  have here := (rootAt_iff segments).mpr ⟨root.checked, root.steady second.tree agree⟩
  refine ⟨here, ⟨?_, ?_⟩⟩
  · intro other there
    rwa [← here.unique there]
  · intro other there meets
    rw [← here.unique there, Path.stepsOf_ofReal segments] at meets
    exact root.clear ((meets.mono (fun _ swept => Or.inl swept)).of_agree agree)

end Ensured

theorem ensured_root (proper : ∀ name ∈ names, IsProper name) (inside : names ≠ [])
    (grounded : disk.tree.Grounded) (fit : disk.FitRoot (Path.ofReal names))
    (made : disk.createDirs (Path.ofReal names) = (.ok (), ensured)) :
    ∃ top, Ensured disk ensured names top := by
  have segments := segments_of_proper proper
  obtain ⟨front, last, rfl⟩ : ∃ front last, names = front ++ [last] := by
    obtain ⟨front, last, same⟩ := (List.eq_nil_or_concat names).resolve_left inside
    exact ⟨front, last, by rw [same, List.concat_eq_append]⟩
  have checked := checkText_of_made proper made
  by_cases there : ∃ top, LeadsTo disk.tree (front ++ [last]) top
  · obtain ⟨top, leads⟩ := there
    rw [createDirs_there proper checked leads] at made
    cases made
    exact ⟨top, .of_fit segments grounded fit ((rootAt_iff segments).mpr ⟨checked, leads⟩)⟩
  -- A root that is made holds nothing, so no place in it can have been looked up on the way.
  · have blocked : Blocked disk.tree (front ++ [last]) := fun top leads => there ⟨top, leads⟩
    obtain ⟨top, new⟩ := newBase_of_made proper grounded blocked made
    have grown := createDirs_grown (fun _ => True) (Path.isAbsolute_ofReal _) grounded made
    refine ⟨top, new.grounded, checked, new.leads, ?_, ?_, ?_, Or.inr ?_⟩
    · intro meets
      obtain ⟨met, output, stands, -⟩ := new.leads.meets_found meets
      rcases output with (⟨rest, rfl⟩ | ⟨rest, rfl⟩) | rfl
      · exact stands (by rw [List.append_assoc]; exact new.empty _ (by simp))
      · exact stands (by rw [List.append_assoc]; exact new.empty _ (by simp))
      · exact stands (new.empty _ (by simp))
    · intro node found
      rw [new.empty _ (by simp)] at found
      cases found
    · intro rest filled
      rw [new.empty rest filled]
      by_contra stands
      obtain ⟨node, found⟩ := Option.ne_none_iff_exists'.mp (Ne.symm stands)
      have kept := grown.kept trivial found
      rw [new.empty rest filled] at kept
      cases kept
    · intro other here
      exact blocked other ((rootAt_iff segments).mp here).2

theorem Ensured.same_top {firstEnsured secondEnsured : Disk} {other : RealPath}
    (proper : ∀ name ∈ names, IsProper name)
    (one : Ensured first firstEnsured names top) (two : Ensured second secondEnsured names other)
    (fit : first.FitRoot (Path.ofReal names))
    (agree : ∀ spot, (∀ top, first.RootAt (Path.ofReal names) top → ¬ Output top spot) →
      second.tree.get? spot = first.tree.get? spot)
    (madeFirst : first.createDirs (Path.ofReal names) = (.ok (), firstEnsured))
    (madeSecond : second.createDirs (Path.ofReal names) = (.ok (), secondEnsured)) :
    top = other := by
  have segments := segments_of_proper proper
  rcases one.either with here | absent
  · have leads : LeadsTo second.tree names top := by
      refine fit.steady segments here second.tree (fun spot free => agree spot ?_)
      intro place there
      rwa [← here.unique there]
    have also := (rootAt_iff segments).mpr ⟨one.checked, leads⟩
    rcases two.either with there | none
    · exact also.unique there
    · exact absurd also (none top)
  -- Without a root in the first file system the two do not differ at all.
  · have twins : Twins first second :=
      ⟨funext fun spot => (agree spot (fun place here => absurd here (absent place))).symm⟩
    have alike := twins.createDirs (Path.isAbsolute_ofReal names)
    rw [madeFirst, madeSecond] at alike
    have leads := one.steady.leads
    rw [LeadsTo, ← walk_ok_iff, walk_twin alike.twins.same, walk_ok_iff] at leads
    exact LeadsTo.unique leads two.steady.leads

end Roots

end Disk

end PlatformBundle
