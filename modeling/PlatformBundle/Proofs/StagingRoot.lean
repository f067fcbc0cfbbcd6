import PlatformBundle.Proofs.DiskSteps
import PlatformBundle.Proofs.StageSteps
/-!
The staging root after its preparation. Whatever stood there before, the sources are then staged
below a directory that holds no link, so a file is written at the place that its path spells. Only
the manifest at the top can still be a link, one that was there before.
-/

namespace PlatformBundle

open FileTree Disk

variable {disk left : Disk} {names : List String} {last : String}

/-- A directory was made afresh under a name, and the links that are left were there before. -/
structure Remade (before after : FileTree) (names : List String) (last : String) : Prop where
  grounded : after.Grounded
  links : ∀ place target, after.get? place = some (.link target) →
    before.get? place = some (.link target)
  fresh : ∃ place, LeadsTo after names place ∧ LeadsTo after (names ++ [last]) (place ++ [last]) ∧
    after.Linkless (place ++ [last]) ∧ (LeadsTo before names place ∨ after.Linkless place)

theorem Remade.linkless {before after : FileTree} (remade : Remade before after names last)
    {top : RealPath} (clear : before.Linkless top) : after.Linkless top :=
  fun rest target found => clear rest target (remade.links _ target found)

theorem remakeDir_ok {path : Path}
    (remade : (Files.remakeDir path).onDisk disk = (.ok (), left)) :
    ∃ removed, disk.removeTree path = ((disk.removeTree path).1, removed) ∧
      ((disk.removeTree path).1 = .ok () ∨ (disk.removeTree path).1 = .error .notFound) ∧
      removed.createDirs path = (.ok (), left) := by
  obtain ⟨_, removed, remove, make⟩ := (FileWork.onDisk_bind_ok_iff disk).mp remade
  obtain ⟨same, fine⟩ := Files.removeDir_ok_iff.mp remove
  exact ⟨removed, Prod.ext rfl same, fine, Files.makeDir_ok_iff.mp make⟩

theorem remakeDir_remade (proper : ∀ name ∈ names ++ [last], IsProper name)
    (grounded : disk.tree.Grounded)
    (remade : (Files.remakeDir (Path.ofReal (names ++ [last]))).onDisk disk = (.ok (), left)) :
    Remade disk.tree left.tree names last := by
  obtain ⟨middle, remove, fine, make⟩ := remakeDir_ok remade
  have removed := removeTree_removed proper grounded remove fine
  obtain ⟨grown, ⟨ends, leadsLast, -⟩, place, leads, oldOrNew⟩ :=
    createDirs_reached (fun _ => True) proper removed.grounded make
  have clear : left.tree.Linkless (place ++ [last]) ∧
      (LeadsTo disk.tree names place ∨ left.tree.Linkless place) := by
    rcases oldOrNew with old | new
    · have free := removed.grounded.vacant (removed.gone place old)
      exact ⟨grown.linkless free.linkless, Or.inl (old.of_part removed.part)⟩
    · have none := grown.linkless new.linkless
      exact ⟨none.below [last], Or.inr none⟩
  have same : ends = place ++ [last] :=
    leads.spot_of_linkless leadsLast
      (fun name listed => proper name (List.mem_append_right _ listed)) clear.1
  rw [same] at leadsLast
  exact ⟨grown.grounded, fun _ _ found => removed.part (grown.link.mp found),
    place, leads, leadsLast, clear⟩

/-- The names lead to a staging root in which sources and manifests can be put. -/
structure Ready (tree : FileTree) (names : List String) (place : RealPath) : Prop where
  grounded : tree.Grounded
  leads : LeadsTo tree names place
  sources : tree.Linkless (place ++ [packagesDir])
  manifest : ∀ target, tree.get? (place ++ [manifestFile]) ≠ some (.link target)

theorem Ready.grow {before after : FileTree} {place : RealPath} {spared : RealPath → Prop}
    (ready : Ready before names place) (grown : Grown spared before after) :
    Ready after names place where
  grounded := grown.grounded
  leads := ready.leads.grow grown.toGrows
  sources := grown.linkless ready.sources
  manifest := fun target found => ready.manifest target (grown.link.mp found)

def PlainManifest (tree : FileTree) (names : List String) : Prop :=
  ∀ place target, LeadsTo tree names place →
    tree.get? (place ++ [manifestFile]) ≠ some (.link target)

theorem ensureDir_plain {reset : Bool} (proper : ∀ name ∈ names ++ [last], IsProper name)
    (grounded : disk.tree.Grounded)
    (plain : reset = false → PlainManifest disk.tree (names ++ [last]))
    (ensured : (Files.ensureDir (Path.ofReal (names ++ [last])) reset).onDisk disk =
      (.ok (), left)) : PlainManifest left.tree (names ++ [last]) := by
  unfold Files.ensureDir at ensured
  intro other target leadsOther found
  split at ensured
  · have remade := remakeDir_remade proper grounded ensured
    obtain ⟨place, -, leads, clear, -⟩ := remade.fresh
    rw [leadsOther.unique leads] at found
    exact clear [manifestFile] target found
  · rename_i kept
    obtain ⟨grown, ⟨place, leads, oldOrNew⟩, -⟩ :=
      createDirs_reached (fun _ => True) proper grounded (Files.makeDir_ok_iff.mp ensured)
    obtain rfl := leadsOther.unique leads
    have before := grown.link.mp found
    rcases oldOrNew with old | new
    · exact plain (by simpa using kept) _ target old before
    · exact new.linkless [manifestFile] target before

theorem ends_of_length {names : List String} (long : 2 ≤ names.length) :
    ∃ front first last, names = front ++ [first] ++ [last] := by
  rcases names.eq_nil_or_concat with rfl | ⟨above, last, rfl⟩
  · simp at long
  · rcases above.eq_nil_or_concat with rfl | ⟨front, first, rfl⟩
    · simp at long
    · exact ⟨front, first, last, by simp⟩

theorem write_ok {text : String} (proper : ∀ name ∈ names, IsProper name)
    (long : 2 ≤ names.length) (grounded : disk.tree.Grounded)
    (wrote : (Files.write (Path.ofReal names) text).onDisk disk = (.ok (), left)) :
    checkText (Path.ofReal names).text = .ok () ∧
      ∃ made spot, (∀ spared, Grown spared disk.tree made) ∧
        Written made left.tree names text.toUTF8 spot := by
  obtain ⟨front, first, last, rfl⟩ := ends_of_length long
  obtain ⟨made, dirs, wrote⟩ := (Files.write_ok_iff (Path.parent_ofReal proper)).mp wrote
  have properAbove : ∀ name ∈ front ++ [first], IsProper name :=
    fun name listed => proper name (List.mem_append_left _ listed)
  have grown := fun spared => (createDirs_reached spared properAbove grounded dirs).1
  obtain ⟨checked, spot, written⟩ := write_written
    (segments_of_proper proper) (grown (fun _ => True)).grounded wrote
  exact ⟨checked, made.tree, spot, grown, written⟩

theorem fromUTF8?_toUTF8 (text : String) : String.fromUTF8? text.toUTF8 = some text := by
  have valid : text.toUTF8.IsValidUTF8 := text.isValidUTF8
  rw [String.fromUTF8?, dif_pos valid]
  rfl

section Linkless

variable {top : String} {more : List String} {text : String} {place : RealPath}
  (proper : ∀ name ∈ names ++ top :: more, IsProper name) (leads : LeadsTo disk.tree names place)
  (clear : disk.tree.Linkless (place ++ [top]))
include proper leads clear

-- Where no link is met the spot is the one that is spelled.
theorem write_linkless (long : 2 ≤ (names ++ top :: more).length) (grounded : disk.tree.Grounded)
    (wrote : (Files.write (Path.ofReal (names ++ top :: more)) text).onDisk disk =
      (.ok (), left)) :
    Grown (fun other => other ≠ place ++ top :: more) disk.tree left.tree ∧
      left.readText (Path.ofReal (names ++ top :: more)) = .ok text := by
  obtain ⟨checked, made, spot, growths, written⟩ := write_ok proper long grounded wrote
  have here : spot = place ++ top :: more := by
    obtain ⟨found, walks, rfl⟩ := written.found
    have grows := (growths (fun _ => True)).toGrows
    exact (leads.grow grows).spot_of_linkless walks
      (fun name listed => proper name (List.mem_append_right _ listed)) (grows.linkless clear)
  subst here
  refine ⟨(growths _).trans written.grown, ?_⟩
  obtain ⟨executable, walks⟩ := written.stands
  exact (readText_ok_iff (segments_of_proper proper)).mpr
    ⟨checked, _, _, executable, walks, fromUTF8?_toUTF8 text⟩

/-- What is read where no link is met is read there later, if its place is spared. -/
theorem readText_linkless {spared : RealPath → Prop} (grows : Grows spared disk.tree left.tree)
    (safe : spared (place ++ top :: more))
    (read : disk.readText (Path.ofReal (names ++ top :: more)) = .ok text) :
    left.readText (Path.ofReal (names ++ top :: more)) = .ok text := by
  rw [readText_ok_iff (segments_of_proper proper)] at read ⊢
  obtain ⟨checked, spot, content, executable, walks, decoded⟩ := read
  have here : spot = place ++ top :: more := leads.spot_of_linkless walks
    (fun name listed => proper name (List.mem_append_right _ listed)) clear
  exact ⟨checked, spot, content, executable, walks.grow grows (Or.inl (here ▸ safe)), decoded⟩

end Linkless

theorem isProper_packagesDir : IsProper packagesDir := by decide

theorem isProper_builtDir : IsProper builtDir := by decide

theorem isProper_manifestFile : IsProper manifestFile := by decide

theorem checkText_of_write {text : String} (proper : ∀ name ∈ names ++ [last], IsProper name)
    (wrote : (Files.write (Path.ofReal (names ++ [last])) text).onDisk disk = (.ok (), left)) :
    checkText (Path.ofReal (names ++ [last])).text = .ok () := by
  obtain ⟨made, -, wrote⟩ := (Files.write_ok_iff (Path.parent_ofReal proper)).mp wrote
  obtain ⟨found, executable, takes, -⟩ := Disk.write_ok_iff.mp wrote
  exact takes.checked

def Disk.ManifestUnlinked (disk : Disk) (root : Path) : Prop :=
  ∀ place target, disk.locate false (root / manifestFile) ≠ .ok (.present place (.link target))

theorem plainManifest_of_unlinked (proper : ∀ name ∈ names, IsProper name)
    (checked : checkText (Path.ofReal (names ++ [manifestFile])).text = .ok ())
    (unlinked : disk.ManifestUnlinked (Path.ofReal names)) : PlainManifest disk.tree names := by
  intro place target leads found
  have segments := segments_of_proper (proper_append_one proper isProper_manifestFile)
  have entry : IsEntryName manifestFile :=
    ⟨isProper_manifestFile.notHere, isProper_manifestFile.notUp, by decide⟩
  have path := Path.ofReal_div_name (segments_of_proper proper) isProper_manifestFile.toIsSegment
  obtain ⟨left, same⟩ := leads.onward
  refine unlinked (place ++ [manifestFile]) target ?_
  rw [path, locate_ok_iff segments]
  refine ⟨checked, walks_of_walk ?_⟩
  rw [same false _ (List.cons_ne_nil manifestFile [])]
  exact walk_of_walks (.link entry found rfl)

/-- The names lead to a staging root, and no link stands where sources are put in it. -/
structure Cleared (tree : FileTree) (names : List String) (place : RealPath) : Prop where
  grounded : tree.Grounded
  leads : LeadsTo tree names place
  sources : tree.Linkless (place ++ [packagesDir])

theorem Cleared.grow {before after : FileTree} {place : RealPath} {spared : RealPath → Prop}
    (cleared : Cleared before names place) (grown : Grown spared before after) :
    Cleared after names place where
  grounded := grown.grounded
  leads := cleared.leads.grow grown.toGrows
  sources := grown.linkless cleared.sources

theorem ensureDir_grounded {reset : Bool} (proper : ∀ name ∈ names ++ [last], IsProper name)
    (grounded : disk.tree.Grounded)
    (ensured : (Files.ensureDir (Path.ofReal (names ++ [last])) reset).onDisk disk =
      (.ok (), left)) : left.tree.Grounded := by
  unfold Files.ensureDir at ensured
  split at ensured
  · exact (remakeDir_remade proper grounded ensured).grounded
  · exact (createDirs_reached (fun _ => True) proper grounded
      (Files.makeDir_ok_iff.mp ensured)).1.grounded

-- A link for the manifest at the top can only be one that the first step has left there.
theorem prepare_cleared {reset : Bool} (proper : ∀ name ∈ names ++ [last], IsProper name)
    (grounded : disk.tree.Grounded)
    (prepared : (Staging.prepare (Path.ofReal (names ++ [last])) reset).onDisk disk =
      (.ok (), left)) :
    ∃ ensured place,
      (Files.ensureDir (Path.ofReal (names ++ [last])) reset).onDisk disk = (.ok (), ensured) ∧
      Cleared left.tree (names ++ [last]) place ∧
      (PlainManifest ensured.tree (names ++ [last]) → ∀ target,
        left.tree.get? (place ++ [manifestFile]) ≠ some (.link target)) := by
  have segments := segments_of_proper proper
  have below {name : String} (isProper : IsProper name) :
      Path.ofReal (names ++ [last]) / name = Path.ofReal ((names ++ [last]) ++ [name]) ∧
        ∀ other ∈ (names ++ [last]) ++ [name], IsProper other := by
    exact ⟨Path.ofReal_div_name segments isProper.toIsSegment, proper_append_one proper isProper⟩
  obtain ⟨ensured, cleared, ensure, packages, built⟩ := Staging.prepare_ok prepared
  rw [(below isProper_packagesDir).1] at packages
  rw [(below isProper_builtDir).1] at built
  have first := remakeDir_remade (below isProper_packagesDir).2
    (ensureDir_grounded proper grounded ensure) packages
  have second := remakeDir_remade (below isProper_builtDir).2 first.grounded built
  obtain ⟨top, leadsTop, -, clearSources, oldOrClearTop⟩ := first.fresh
  obtain ⟨place, leads, -, -, oldOrClear⟩ := second.fresh
  refine ⟨ensured, place, ensure, ⟨second.grounded, leads, ?_⟩, ?_⟩
  · rcases oldOrClear with old | clear
    · rw [old.unique leadsTop]
      exact second.linkless clearSources
    · exact clear.below [packagesDir]
  · intro plain target found
    rcases oldOrClear with old | clear
    · rw [old.unique leadsTop] at found
      rcases oldOrClearTop with before | clearTop
      · exact plain top target before (first.links _ target (second.links _ target found))
      · exact clearTop [manifestFile] target (second.links _ target found)
    · exact clear [manifestFile] target found

theorem prepare_output {reset : Bool} (proper : ∀ name ∈ names ++ [last], IsProper name)
    (grounded : disk.tree.Grounded)
    (prepared : (Staging.prepare (Path.ofReal (names ++ [last])) reset).onDisk disk =
      (.ok (), left)) :
    ∃ place, LeadsTo left.tree (names ++ [last]) place ∧
      checkText (Path.ofReal (names ++ [last] ++ [builtDir])).text = .ok () ∧
      LeadsTo left.tree (names ++ [last] ++ [builtDir]) (place ++ [builtDir]) ∧
      left.tree.Linkless (place ++ [builtDir]) := by
  have properPackages := proper_append_one proper isProper_packagesDir
  have properBuilt := proper_append_one proper isProper_builtDir
  have segments := segments_of_proper proper
  obtain ⟨ensured, cleared, ensure, packages, built⟩ := Staging.prepare_ok prepared
  rw [Path.ofReal_div_name segments isProper_packagesDir.toIsSegment] at packages
  rw [Path.ofReal_div_name segments isProper_builtDir.toIsSegment] at built
  have first := remakeDir_remade properPackages (ensureDir_grounded proper grounded ensure) packages
  obtain ⟨place, leads, leadsBuilt, clear, -⟩ :=
    (remakeDir_remade properBuilt first.grounded built).fresh
  obtain ⟨removed, -, -, made⟩ := remakeDir_ok built
  exact ⟨place, leads, checkText_of_createDirs properBuilt made, leadsBuilt, clear⟩

theorem prepare_ready {reset : Bool} (proper : ∀ name ∈ names ++ [last], IsProper name)
    (grounded : disk.tree.Grounded)
    (plain : reset = false → PlainManifest disk.tree (names ++ [last]))
    (prepared : (Staging.prepare (Path.ofReal (names ++ [last])) reset).onDisk disk =
      (.ok (), left)) :
    ∃ place, Ready left.tree (names ++ [last]) place := by
  obtain ⟨ensured, place, ensure, cleared, unlinked⟩ := prepare_cleared proper grounded prepared
  have plainEnsured := ensureDir_plain proper grounded plain ensure
  exact ⟨place, cleared.grounded, cleared.leads, cleared.sources, unlinked plainEnsured⟩

theorem ready_of_staged {reset : Bool} {ready : Disk} {settings : Settings} {registry : Registry}
    {files : List Classified} {config : BundleConfig} {batch : StagedBatch}
    (proper : ∀ name ∈ names ++ [last], IsProper name) (grounded : disk.tree.Grounded)
    (prepared : (Staging.prepare (Path.ofReal (names ++ [last])) reset).onDisk disk =
      (.ok (), ready))
    (unlinked : ready.ManifestUnlinked (Path.ofReal (names ++ [last])))
    (staged : (Staging.stage settings registry (Path.ofReal (names ++ [last])) files config).onDisk
      ready = (.ok batch, left)) :
    ∃ place, Ready ready.tree (names ++ [last]) place := by
  obtain ⟨-, place, -, cleared, -⟩ := prepare_cleared proper grounded prepared
  obtain ⟨_, _, _, -, -, top, -⟩ := Staging.stage_ok staged
  rw [Path.ofReal_div_name (segments_of_proper proper) isProper_manifestFile.toIsSegment] at top
  have plain := plainManifest_of_unlinked proper
    (checkText_of_write (proper_append_one proper isProper_manifestFile) top) unlinked
  exact ⟨place, cleared.grounded, cleared.leads, cleared.sources,
    fun target => plain place target cleared.leads⟩

end PlatformBundle
