import PlatformBundle.Closure
import PlatformBundle.Proofs.BundleSteps
import PlatformBundle.Proofs.KeyMaps
import PlatformBundle.Proofs.RootNames
/-!
What the closure check finds. It passes when each dependency of each manifest has a directory at
one of its three places, and otherwise reports all the links that have none, each once and in
order. A dependency is joined on as it is written: the places of one whose name begins at the root
are all that name itself, and only the others are below the staging root.
-/

namespace PlatformBundle

namespace Closure

def Link.Precedes (first second : Link) : Prop :=
  first.package < second.package ∨
    first.package = second.package ∧ first.dependency < second.dependency

theorem mem_links {packages : KeyMap PackageManifest} {link : Link} :
    link ∈ links packages ↔ ∃ manifest, packages.get? link.package = some manifest ∧
      manifest.dependencies.contains link.dependency = true := by
  simp only [links, List.mem_flatMap, List.mem_map]
  constructor
  · rintro ⟨⟨name, manifest⟩, listed, dependency, known, rfl⟩
    exact ⟨manifest, KeyMap.get?_eq_some_iff.mpr listed, KeyMap.mem_keys_iff.mp known⟩
  · rintro ⟨manifest, found, known⟩
    exact ⟨(link.package, manifest), KeyMap.get?_eq_some_iff.mp found, link.dependency,
      KeyMap.mem_keys_iff.mpr known, rfl⟩

theorem links_ordered (packages : KeyMap PackageManifest) :
    (links packages).Pairwise Link.Precedes := by
  rw [links, List.pairwise_flatMap]
  constructor
  · intro entry _
    refine List.pairwise_map.mpr (entry.2.dependencies.keys_ascending.imp ?_)
    intro first second before
    exact Or.inr ⟨rfl, before⟩
  · refine packages.ascending.imp ?_
    intro first second before one fromFirst other fromSecond
    obtain ⟨_, -, rfl⟩ := List.mem_map.mp fromFirst
    obtain ⟨_, -, rfl⟩ := List.mem_map.mp fromSecond
    exact Or.inl before

def Link.IsFound (link : Link) (root : Path) (disk : Disk) : Prop :=
  ∃ path ∈ places root link, disk.isDirectory path = true

/-- The links that have a directory at none of their places, in order. -/
def absentLinks (root : Path) (packages : KeyMap PackageManifest) (disk : Disk) : List Link :=
  (links packages).filter (fun link => !(places root link).any disk.isDirectory)

theorem mem_absentLinks {root : Path} {packages : KeyMap PackageManifest} {disk : Disk}
    {link : Link} : link ∈ absentLinks root packages disk ↔
      link ∈ links packages ∧ ¬ link.IsFound root disk := by
  simp [absentLinks, Link.IsFound]

theorem anyDirectory_onDisk (paths : List Path) (disk : Disk) :
    (anyDirectory paths).onDisk disk = (paths.any disk.isDirectory, disk) := by
  induction paths with
  | nil => rfl
  | cons path rest ih =>
      have ahead : (anyDirectory (path :: rest)).onDisk disk =
          DiskTask.onDisk (if disk.isDirectory path = true then pure true
            else anyDirectory rest) disk := rfl
      rw [ahead, List.any_cons]
      by_cases found : disk.isDirectory path = true
      · rw [if_pos found, found]
        rfl
      · rw [if_neg found, ih, Bool.eq_false_iff.mpr found, Bool.false_or]

theorem missingLinks_onDisk (root : Path) (links : List Link) (disk : Disk) :
    (missingLinks root links).onDisk disk =
      (links.filter (fun link => !(places root link).any disk.isDirectory), disk) := by
  induction links with
  | nil => rfl
  | cons link rest ih =>
      have found := anyDirectory_onDisk (places root link) disk
      unfold DiskTask.onDisk at ih found ⊢
      refine (Task.run_bind DiskCall.answer (anyDirectory (places root link)) _ disk).trans ?_
      rw [found]
      refine (Task.run_bind DiskCall.answer (missingLinks root rest) _ disk).trans ?_
      rw [ih, List.filter_cons]
      cases (places root link).any disk.isDirectory <;> rfl

theorem verify_onDisk (root : Path) (packages : KeyMap PackageManifest) (disk : Disk) :
    (verify root packages).onDisk disk =
      (if absentLinks root packages disk = [] then .ok ()
        else .error (.missingDependencies ((absentLinks root packages disk).map Link.text)),
        disk) := by
  rw [verify, FileWork.onDisk_bind, FileWork.onDisk_lift, missingLinks_onDisk]
  unfold absentLinks
  cases (links packages).filter (fun link => !(places root link).any disk.isDirectory) with
  | nil => rfl
  | cons link rest => rfl

theorem verify_ok {root : Path} {packages : KeyMap PackageManifest} {disk left : Disk}
    (verified : (verify root packages).onDisk disk = (.ok (), left)) :
    absentLinks root packages disk = [] ∧ left = disk := by
  rw [verify_onDisk, Prod.mk.injEq] at verified
  obtain ⟨passes, same⟩ := verified
  split at passes
  · exact ⟨by assumption, same.symm⟩
  · cases passes

theorem found_of_none_absent {root : Path} {packages : KeyMap PackageManifest} {disk : Disk}
    (none : absentLinks root packages disk = []) :
    ∀ link ∈ links packages, link.IsFound root disk := by
  intro link listed
  by_contra absent
  have member := mem_absentLinks.mpr ⟨listed, absent⟩
  rw [none] at member
  cases member

def IsRelative (name : String) : Prop := (name.toList.head? == some '/') = false

instance (name : String) : Decidable (IsRelative name) := inferInstanceAs (Decidable (_ = false))

theorem places_of_absolute (root : Path) {link : Link} (absolute : ¬ IsRelative link.dependency) :
    places root link = [⟨link.dependency⟩, ⟨link.dependency⟩, ⟨link.dependency⟩] := by
  have joined (base : Path) : base / link.dependency = ⟨link.dependency⟩ := by
    change Path.join base link.dependency = _
    rw [Path.join, if_pos (by simpa [IsRelative] using absolute)]
  rw [places, joined, joined, joined]

example : places ⟨"/b/web.browser"⟩ ⟨"acme_widgets", "/"⟩ = [⟨"/"⟩, ⟨"/"⟩, ⟨"/"⟩] :=
  places_of_absolute _ (by decide)

section Joining

/-- A path that more can be joined on with one separator. -/
def IsOpen (path : Path) : Prop :=
  path.text.isEmpty = false ∧ (path.text.toList.getLast? == some '/') = false

theorem div_text {path : Path} (isOpen : IsOpen path) {more : String} (relative : IsRelative more) :
    (path / more).text = path.text ++ "/" ++ more := by
  change (Path.join path more).text = _
  unfold IsRelative at relative
  rw [Path.join, relative, isOpen.1, isOpen.2]
  rfl

theorem isRelative_of_isSegment {name : String} (segment : IsSegment name) : IsRelative name := by
  unfold IsRelative
  rw [beq_eq_false_iff_ne]
  intro first
  exact segment.whole (List.mem_of_mem_head? first)

theorem isOpen_div {path : Path} {name : String} (segment : IsSegment name) :
    IsOpen (path / name) := by
  have relative := isRelative_of_isSegment segment
  have ends : ∃ front, (path / name).text = front ++ name := by
    change ∃ front, (Path.join path name).text = front ++ name
    unfold IsRelative at relative
    rw [Path.join, relative]
    simp only [Bool.false_eq_true, if_false]
    split
    · exact ⟨_, rfl⟩
    · exact ⟨_, rfl⟩
  obtain ⟨front, whole⟩ := ends
  unfold IsOpen
  rw [whole]
  constructor
  · rw [← Bool.not_eq_true, String.isEmpty_iff, ← String.toList_inj]
    simpa using fun _ => segment.filled
  · rw [beq_eq_false_iff_ne, String.toList_append, List.getLast?_append,
      List.getLast?_eq_some_getLast segment.filled, Option.some_or]
    intro same
    exact segment.whole (Option.some.inj same ▸ List.getLast_mem segment.filled)

theorem isSegment_modulesDir : IsSegment modulesDir := by decide

theorem places_text (settings : Settings) (platform : Platform) {link : Link}
    (segment : IsSegment link.package) (relative : IsRelative link.dependency) :
    (places (settings.stagingRoot platform) link).map Path.text =
      [(settings.stagingRoot platform).text ++ "/node_modules/" ++ link.package ++
          "/node_modules/" ++ link.dependency,
        (settings.stagingRoot platform).text ++ "/packages/" ++ link.package ++
          "/node_modules/" ++ link.dependency,
        (settings.stagingRoot platform).text ++ "/node_modules/" ++ link.dependency] := by
  have openRoot : IsOpen (settings.stagingRoot platform) :=
    isOpen_div platform.isProper_dirName.toIsSegment
  have modules := isSegment_modulesDir
  have packages : IsSegment packagesDir := by decide
  have own := isRelative_of_isSegment segment
  have nested := isRelative_of_isSegment modules
  simp only [places, List.map_cons, List.map_nil, div_text (isOpen_div modules) relative,
    div_text (isOpen_div segment) nested, div_text (isOpen_div modules) own,
    div_text (isOpen_div packages) own, div_text openRoot nested,
    div_text openRoot (isRelative_of_isSegment packages)]
  simp [modulesDir, packagesDir, String.append_assoc]

end Joining

end Closure

end PlatformBundle
