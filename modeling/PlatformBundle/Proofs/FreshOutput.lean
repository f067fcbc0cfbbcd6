import PlatformBundle.Proofs.FitRoots
import PlatformBundle.Proofs.StagedPieces
/-!
A pass over a batch that is staged afresh. What it puts out depends on the batch alone and not on
what earlier passes have left: the sources and the manifests are the same, no chunk is there, and
everything else in the staging root stays as it was.
-/

namespace PlatformBundle

open FileTree Disk

namespace View

def cleared (top : RealPath) (view : View) : View :=
  fun spot =>
    if spot = top ++ [packagesDir] ∨ spot = top ++ [builtDir] then some .directory
    else if Swept top spot then none
    else view spot

theorem cleared_elsewhere {top spot : RealPath} {view : View} (free : ¬ Swept top spot) :
    view.cleared top spot = view spot := by
  have outside : ¬ (spot = top ++ [packagesDir] ∨ spot = top ++ [builtDir]) := by
    rintro (rfl | rfl)
    · exact free (Or.inl List.prefix_rfl)
    · exact free (Or.inr List.prefix_rfl)
  rw [cleared, if_neg outside, if_neg free]

end View

namespace Piece

variable {place : RealPath} {first second view : View} {piece : Piece} {pieces : List Piece}

theorem onto_congr (same : ∀ rest, first (place ++ packagesDir :: rest) =
    second (place ++ packagesDir :: rest)) (rest : RealPath) :
    piece.onto place first (place ++ packagesDir :: rest) =
      piece.onto place second (place ++ packagesDir :: rest) := by
  unfold onto
  cases piece.text with
  | none => simp only [View.withDirs, same]
  | some text =>
      have there : first (place ++ piece.way) = second (place ++ piece.way) := same piece.names
      simp only [View.withFile, View.withDirs, same, there]

theorem onto_outside (above : ∀ higher, higher <+: place → view higher = some .directory)
    {spot : RealPath} (outside : ¬ place ++ [packagesDir] <+: spot) :
    piece.onto place view spot = view spot := by
  have whole : place ++ piece.way = place ++ [packagesDir] ++ piece.names := by simp [way]
  rw [onto_elsewhere, View.withDirs]
  · split
    · rename_i higher
      rw [whole] at higher
      rcases List.prefix_or_prefix_of_prefix higher (List.prefix_append _ _) with shorter | longer
      · rcases List.prefix_concat_iff.mp shorter with rfl | inside
        · exact absurd List.prefix_rfl outside
        · rw [above spot inside, Option.some_or]
      · exact absurd longer outside
    · exact Option.or_none
  · rintro - rfl
    rw [whole] at outside
    exact outside (List.prefix_append _ _)

theorem foldl_onto_congr (same : ∀ rest, first (place ++ packagesDir :: rest) =
    second (place ++ packagesDir :: rest)) (rest : RealPath) :
    pieces.foldl (onto place) first (place ++ packagesDir :: rest) =
      pieces.foldl (onto place) second (place ++ packagesDir :: rest) := by
  induction pieces generalizing first second with
  | nil => exact same rest
  | cons piece others ih => exact ih (onto_congr same)

theorem foldl_onto_outside (above : ∀ higher, higher <+: place → view higher = some .directory)
    {spot : RealPath} (outside : ¬ place ++ [packagesDir] <+: spot) :
    pieces.foldl (onto place) view spot = view spot := by
  induction pieces generalizing view with
  | nil => rfl
  | cons piece others ih =>
      have stays : ∀ higher, higher <+: place →
          piece.onto place view higher = some .directory := by
        intro higher inside
        have apart : ¬ place ++ [packagesDir] <+: higher := fun below =>
          not_output_above inside (Or.inl (Or.inl below))
        rw [onto_outside above apart, above higher inside]
      rw [List.foldl_cons, ih stays, onto_outside above outside]

end Piece

section Passes

variable {disk ensured cleared ready left : Disk} {names : List String} {top spot : RealPath}

theorem prepared_view (proper : ∀ name ∈ names, IsProper name) (grounded : ensured.tree.Grounded)
    (steady : Steady ensured.tree names top (Swept top))
    (packages : (Files.remakeDir (Path.ofReal names / packagesDir)).onDisk ensured =
      (.ok (), cleared))
    (built : (Files.remakeDir (Path.ofReal names / builtDir)).onDisk cleared = (.ok (), ready)) :
    ready.tree.get? = View.cleared top ensured.tree.get? ∧ LeadsTo ready.tree names top ∧
      ready.tree.Grounded := by
  have segments := segments_of_proper proper
  have properPackages := proper_append_one proper isProper_packagesDir
  have properBuilt := proper_append_one proper isProper_builtDir
  rw [Path.ofReal_div_name segments isProper_packagesDir.toIsSegment] at packages
  rw [Path.ofReal_div_name segments isProper_builtDir.toIsSegment] at built
  have first := remakeDir_clears properPackages grounded
    (steady.weaken (fun _ within => Or.inl within)) packages
  -- Clearing the packages leaves the way alone, so the chunks are cleared at the same root.
  have steadyCleared : Steady cleared.tree names top (Swept top) := by
    refine steady.change (fun other free => ?_)
    rw [first, if_neg, if_neg (fun within => free (Or.inl within))]
    rintro rfl
    exact free (Or.inl List.prefix_rfl)
  have groundedCleared := (remakeDir_remade properPackages grounded packages).grounded
  have second := remakeDir_clears properBuilt groundedCleared
    (steadyCleared.weaken (fun _ within => Or.inr within)) built
  have view : ready.tree.get? = View.cleared top ensured.tree.get? := by
    funext other
    rw [second, first, View.cleared]
    by_cases inPackages : top ++ [packagesDir] <+: other
    · have outBuilt := apart_of_names packagesDir_ne_builtDir inPackages
      have notBuilt : other ≠ top ++ [builtDir] := by
        rintro rfl
        exact outBuilt List.prefix_rfl
      simp [notBuilt, outBuilt, inPackages, Swept]
    · have notPackages : other ≠ top ++ [packagesDir] := by
        rintro rfl
        exact inPackages List.prefix_rfl
      simp [notPackages, inPackages, Swept]
  refine ⟨view, steadyCleared ready.tree (fun other free => ?_),
    (remakeDir_remade properBuilt groundedCleared built).grounded⟩
  rw [second, if_neg, if_neg (fun within => free (Or.inr within))]
  rintro rfl
  exact free (Or.inr List.prefix_rfl)

/-- What a pass has put out, and what it has left as it was. -/
structure PutOut (top : RealPath) (pieces : List Piece) (text : String) (before after : View) :
    Prop where
  sources : ∀ rest, after (top ++ packagesDir :: rest) =
    pieces.foldl (Piece.onto top) (before.cleared top) (top ++ packagesDir :: rest)
  built : after (top ++ [builtDir]) = some .directory
  empty : ∀ rest, rest ≠ [] → after (top ++ builtDir :: rest) = none
  manifest : ∃ executable, after (top ++ [manifestFile]) = some (.file text.toUTF8 executable)
  others : ∀ spot, ¬ Output top spot → after spot = before spot

theorem putOut_of_view {pieces : List Piece} {text : String} {before after : View}
    (above : ∀ higher, higher <+: top → before higher = some .directory)
    (view : after = View.withFile (pieces.foldl (Piece.onto top) (before.cleared top))
      (top ++ [manifestFile]) text.toUTF8) : PutOut top pieces text before after := by
  have higherStands : ∀ higher, higher <+: top → before.cleared top higher = some .directory := by
    intro higher inside
    rw [View.cleared_elsewhere (fun swept => not_output_above inside (Or.inl swept)),
      above higher inside]
  have staged : ∀ {spot}, ¬ top ++ [packagesDir] <+: spot →
      pieces.foldl (Piece.onto top) (before.cleared top) spot = before.cleared top spot :=
    Piece.foldl_onto_outside higherStands
  -- The manifest at the top is written at its own place, and every directory above it is there.
  have elsewhere : ∀ {spot}, spot ≠ top ++ [manifestFile] →
      after spot = pieces.foldl (Piece.onto top) (before.cleared top) spot := by
    intro spot differ
    rw [view, View.withFile_elsewhere differ]
    by_cases inside : spot <+: top ++ [manifestFile]
    · have higher := (List.prefix_concat_iff.mp inside).resolve_left differ
      have apart : ¬ top ++ [packagesDir] <+: spot := fun below =>
        not_output_above higher (Or.inl (Or.inl below))
      exact View.withDirs_taken (by rw [staged apart, higherStands spot higher]) |>.trans
        (by rw [staged apart, higherStands spot higher])
    · exact View.withDirs_outside inside
  have outside {first : String} (differ : packagesDir ≠ first) (rest : RealPath) :
      ¬ top ++ [packagesDir] <+: top ++ first :: rest := by
    intro within
    refine apart_of_names differ within ?_
    exact ⟨rest, by simp⟩
  have notManifest {first : String} (differ : first ≠ manifestFile) (rest : RealPath) :
      top ++ first :: rest ≠ top ++ [manifestFile] := by
    intro same
    exact differ (List.cons.inj (List.append_cancel_left same)).1
  constructor
  · intro rest
    exact elsewhere (notManifest packagesDir_ne_manifestFile rest)
  · rw [elsewhere (notManifest builtDir_ne_manifestFile []),
      staged (outside packagesDir_ne_builtDir []), View.cleared, if_pos (Or.inr rfl)]
  · intro rest filled
    have swept : Swept top (top ++ builtDir :: rest) := Or.inr ⟨rest, by simp⟩
    rw [elsewhere (notManifest builtDir_ne_manifestFile rest),
      staged (outside packagesDir_ne_builtDir rest), View.cleared, if_neg, if_pos swept]
    rintro (same | same)
    · exact packagesDir_ne_builtDir (List.cons.inj (List.append_cancel_left same)).1.symm
    · exact filled (List.cons.inj (List.append_cancel_left same)).2
  · rw [view, View.withFile_top]
    exact ⟨_, rfl⟩
  · intro spot free
    rw [elsewhere (fun same => free (Or.inr same)),
      staged (fun within => free (Or.inl (Or.inl within))),
      View.cleared_elsewhere (fun swept => free (Or.inl swept))]

theorem PutOut.sources_eq {pieces : List Piece} {text : String}
    {before after other afterwards : View} (first : PutOut top pieces text before after)
    (second : PutOut top pieces text other afterwards) (rest : RealPath) :
    after (top ++ packagesDir :: rest) = afterwards (top ++ packagesDir :: rest) := by
  rw [first.sources, second.sources]
  refine Piece.foldl_onto_congr (fun more => ?_) rest
  have swept : Swept top (top ++ packagesDir :: more) := Or.inl ⟨more, by simp⟩
  rw [View.cleared, View.cleared, if_pos swept, if_pos swept]

end Passes

namespace Staging

section Passes

variable {disk ensured cleared ready left : Disk} {names : List String} {top : RealPath}
  {settings : Settings} {registry : Registry} {files : List Classified} {config : BundleConfig}
  {batch : StagedBatch}

theorem staged_putOut (proper : ∀ name ∈ names, IsProper name) (inside : names ≠ [])
    (grounded : ensured.tree.Grounded) (steady : Steady ensured.tree names top (Swept top))
    (plain : View.Writable ensured.tree.get? (top ++ [manifestFile]))
    (packages : (Files.remakeDir (Path.ofReal names / packagesDir)).onDisk ensured =
      (.ok (), cleared))
    (built : (Files.remakeDir (Path.ofReal names / builtDir)).onDisk cleared = (.ok (), ready))
    (ordinary : ∀ file ∈ files, file.IsOrdinary)
    (staged : (stage settings registry (Path.ofReal names) files config).onDisk ready =
      (.ok batch, left)) :
    batch = batchOf settings registry (Path.ofReal names) files config ∧
      LeadsTo left.tree names top ∧ left.tree.Grounded ∧
      PutOut top (piecesOf settings registry files) batch.manifest.fileText ensured.tree.get?
        left.tree.get? := by
  obtain ⟨view, leads, groundedReady⟩ := prepared_view proper grounded steady packages built
  have segments := segments_of_proper proper
  have above : ∀ higher, higher <+: top → ensured.tree.get? higher = some .directory :=
    fun higher => stands_above steady.leads grounded
  have clearedReady : Cleared ready.tree names top := by
    refine ⟨groundedReady, leads, fun rest target found => ?_⟩
    have swept : Swept top (top ++ [packagesDir] ++ rest) := Or.inl (List.prefix_append _ _)
    rw [view, View.cleared, if_pos swept] at found
    split at found <;> cases found
  obtain ⟨rfl, -, described, pieces, wrote⟩ := (stage_ok_iff segments ordinary).mp staged
  obtain ⟨clearedDescribed, after⟩ :=
    Piece.putAll_onto clearedReady proper inside (isNamed_piecesOf ordinary) pieces
  -- Nothing has touched the manifest at the top so far.
  have noLink : ∀ target, described.tree.get? (top ++ [manifestFile]) ≠ some (.link target) := by
    intro target found
    have outside : ¬ top ++ [packagesDir] <+: top ++ [manifestFile] := fun within =>
      not_swept_manifest (Or.inl within)
    rw [after, view, Piece.foldl_onto_outside _ outside,
      View.cleared_elsewhere not_swept_manifest] at found
    · obtain ⟨content, executable, wrong⟩ := plain _ found
      cases wrong
    · intro higher inside
      rw [View.cleared_elsewhere (fun swept => not_output_above inside (Or.inl swept)),
        above higher inside]
  rw [Path.ofReal_div_name segments isProper_manifestFile.toIsSegment] at wrote
  have grown := Files.write_grown (Path.isAbsolute_ofReal _) clearedDescribed.grounded wrote
  refine ⟨rfl, clearedDescribed.leads.grow grown.toGrows, grown.grounded, putOut_of_view above ?_⟩
  rw [Files.write_inside clearedDescribed.leads clearedDescribed.grounded inside
    (proper_append_one proper isProper_manifestFile) noLink wrote, after, view]

end Passes

/-- The staging root after a pass: no chunk is there, and what the pass does not put out is as it
was before. -/
structure Fresh (root : Path) (top : RealPath) (before after : Disk) : Prop where
  grounded : after.tree.Grounded
  stands : after.RootAt root top
  fit : after.FitRoot root
  built : after.tree.get? (top ++ [builtDir]) = some .directory
  empty : ∀ rest, rest ≠ [] → after.tree.get? (top ++ builtDir :: rest) = none
  unread : ∀ name, (∀ part ∈ namesOf name, IsProper part) →
    after.exists? (root / builtDir / name) = false
  others : ∀ rest, rest ≠ [] → ¬ Output top (top ++ rest) →
    after.tree.get? (top ++ rest) = before.tree.get? (top ++ rest)

/-- The same sources and the same manifests, byte for byte. -/
structure SameOutput (top : RealPath) (first second : Disk) : Prop where
  sources : ∀ rest, first.tree.get? (top ++ packagesDir :: rest) =
    second.tree.get? (top ++ packagesDir :: rest)
  manifest : ∃ content executable other,
    first.tree.get? (top ++ [manifestFile]) = some (.file content executable) ∧
    second.tree.get? (top ++ [manifestFile]) = some (.file content other)

section Passes

variable {disk ready left : Disk} {names : List String} {top : RealPath} {settings : Settings}
  {registry : Registry} {files : List Classified} {config : BundleConfig} {batch : StagedBatch}

theorem not_there_of_empty (proper : ∀ name ∈ names, IsProper name)
    (leads : LeadsTo disk.tree names top) (grounded : disk.tree.Grounded)
    (built : disk.tree.get? (top ++ [builtDir]) = some .directory)
    (empty : ∀ rest, rest ≠ [] → disk.tree.get? (top ++ builtDir :: rest) = none) {name : String}
    (ordinary : ∀ part ∈ namesOf name, IsProper part) :
    disk.exists? (Path.ofReal names / builtDir / name) = false := by
  have inside := segments_append_one (segments_of_proper proper) isProper_builtDir.toIsSegment
  have properBelow : ∀ part ∈ builtDir :: namesOf name, IsProper part := by
    intro part listed
    rcases List.mem_cons.mp listed with rfl | own
    · exact isProper_builtDir
    · exact ordinary part own
  have path : Path.ofReal names / builtDir / name =
      Path.ofReal (names ++ builtDir :: namesOf name) := by
    have joined := Path.ofReal_div (namesOf_ne_nil name) inside (segments_of_proper ordinary)
    rw [joinWith_namesOf, List.append_assoc] at joined
    rw [Path.ofReal_div_name (segments_of_proper proper) isProper_builtDir.toIsSegment, joined]
    rfl
  have segments : ∀ part ∈ names ++ builtDir :: namesOf name, IsSegment part := by
    intro part listed
    rcases List.mem_append.mp listed with above | below
    · exact (proper part above).toIsSegment
    · exact (properBelow part below).toIsSegment
  -- Nothing is below the directory, so a walk can end only at the place that its names spell.
  have clear : disk.tree.Linkless (top ++ [builtDir]) := by
    intro rest target found
    by_cases here : rest = []
    · rw [here, List.append_nil, built] at found
      cases found
    · rw [List.append_assoc, List.singleton_append, empty rest here] at found
      cases found
  rw [path, exists?, stat]
  rcases located : disk.locate true (Path.ofReal (names ++ builtDir :: namesOf name)) with
    cause | ⟨place, node⟩ | ⟨directory, last⟩
  · rfl
  · obtain ⟨-, walks⟩ := (locate_ok_iff segments).mp located
    have spot : place = top ++ builtDir :: namesOf name :=
      leads.spot_of_linkless walks properBelow clear
    have stands : disk.tree.get? place = some node := walks.stands grounded disk.tree.get?_root
    rw [spot, empty _ (namesOf_ne_nil name)] at stands
    cases stands
  · rfl

theorem pass_putOut {ensured : Disk} (proper : ∀ name ∈ names, IsProper name) (inside : names ≠ [])
    (root : Ensured disk ensured names top)
    (made : disk.createDirs (Path.ofReal names) = (.ok (), ensured))
    (ordinary : ∀ file ∈ files, file.IsOrdinary)
    (prepared : (prepare (Path.ofReal names) false).onDisk disk = (.ok (), ready))
    (staged : (stage settings registry (Path.ofReal names) files config).onDisk ready =
      (.ok batch, left)) :
    batch = batchOf settings registry (Path.ofReal names) files config ∧
      Fresh (Path.ofReal names) top disk left ∧
      PutOut top (piecesOf settings registry files) batch.manifest.fileText ensured.tree.get?
        left.tree.get? := by
  obtain ⟨_, cleared, ensure, packages, built⟩ := prepare_ok prepared
  cases made.symm.trans (Files.makeDir_ok_iff.mp ensure)
  obtain ⟨same, leads, grounded, putOut⟩ := staged_putOut proper inside root.grounded
    (root.steady.weaken (fun _ swept => Or.inl swept)) root.manifest packages built ordinary staged
  have plain : View.Writable left.tree.get? (top ++ [manifestFile]) := by
    obtain ⟨executable, found⟩ := putOut.manifest
    intro node also
    rw [found] at also
    exact ⟨_, executable, (Option.some.inj also).symm⟩
  obtain ⟨stands, fit⟩ := root.fit_after (segments_of_proper proper) putOut.others plain
  refine ⟨same, ?_, putOut⟩
  constructor
  · exact grounded
  · exact stands
  · exact fit
  · exact putOut.built
  · exact putOut.empty
  · intro name parts
    exact not_there_of_empty proper leads grounded putOut.built putOut.empty parts
  · intro rest filled free
    rw [putOut.others _ free, root.same rest filled]

theorem sameOutput_of_putOut {pieces : List Piece} {text : String} {before other : View}
    {first second : Disk} (one : PutOut top pieces text before first.tree.get?)
    (two : PutOut top pieces text other second.tree.get?) : SameOutput top first second := by
  obtain ⟨executable, manifest⟩ := one.manifest
  obtain ⟨also, again⟩ := two.manifest
  exact ⟨one.sources_eq two, _, _, _, manifest, again⟩

end Passes

/-- Two passes over one batch put out the same, whatever earlier passes have left, as long as the
way to the staging root does not go through what they clear. No chunk is there after a pass, and
what it does not put out stays as it was. A pass that is repeated puts out the same again, whatever
has been done in the root in between. -/
theorem pass_leaves_nothing_stale {workdir : RealPath} {draft : Settings.Draft}
    {settings : Settings} {registry : Registry} {platform : Platform} {files : List InputFile}
    {config : BundleConfig} {first second firstReady secondReady firstLeft secondLeft : Disk}
    {firstBatch secondBatch : StagedBatch} (proper : ∀ name ∈ workdir, IsProper name)
    (built : draft.build workdir = .ok settings) (ordinary : ∀ file ∈ files, file.IsOrdinary)
    (groundedFirst : first.tree.Grounded) (groundedSecond : second.tree.Grounded)
    (fitFirst : first.FitRoot (settings.stagingRoot platform))
    (fitSecond : second.FitRoot (settings.stagingRoot platform))
    (agree : ∀ spot, (∀ top, first.RootAt (settings.stagingRoot platform) top →
      ¬ Output top spot) → second.tree.get? spot = first.tree.get? spot)
    (preparedFirst : (prepare (settings.stagingRoot platform) false).onDisk first =
      (.ok (), firstReady))
    (stagedFirst : (stage settings registry (settings.stagingRoot platform)
      (files.map (classify settings)) config).onDisk firstReady = (.ok firstBatch, firstLeft))
    (preparedSecond : (prepare (settings.stagingRoot platform) false).onDisk second =
      (.ok (), secondReady))
    (stagedSecond : (stage settings registry (settings.stagingRoot platform)
      (files.map (classify settings)) config).onDisk secondReady =
      (.ok secondBatch, secondLeft)) :
    let root := settings.stagingRoot platform
    firstBatch = secondBatch ∧ ∃ top,
      SameOutput top firstLeft secondLeft ∧
      Fresh root top first firstLeft ∧ Fresh root top second secondLeft ∧
      ∀ again againReady againLeft againBatch, again.tree.Grounded → again.RootAt root top →
        again.FitRoot root → (prepare root false).onDisk again = (.ok (), againReady) →
        (stage settings registry root (files.map (classify settings)) config).onDisk againReady =
          (.ok againBatch, againLeft) →
        againBatch = firstBatch ∧ SameOutput top firstLeft againLeft ∧
          Fresh root top again againLeft := by
  obtain ⟨names, properRoot, root⟩ :=
    stagingRoot_eq proper (Settings.build_accepted built) platform
  have inside : names ++ [platform.dirName] ≠ [] := by simp
  dsimp only
  rw [root] at fitFirst fitSecond agree preparedFirst stagedFirst preparedSecond stagedSecond ⊢
  generalize names ++ [platform.dirName] = names at *
  have classified : ∀ file ∈ files.map (classify settings), file.IsOrdinary := by
    intro file listed
    obtain ⟨input, given, rfl⟩ := List.mem_map.mp listed
    exact isOrdinary_classify settings (ordinary input given)
  obtain ⟨ensured, -, ensure, -, -⟩ := prepare_ok preparedFirst
  obtain ⟨ensuredAlso, -, ensureAlso, -, -⟩ := prepare_ok preparedSecond
  have made := Files.makeDir_ok_iff.mp ensure
  have madeAlso := Files.makeDir_ok_iff.mp ensureAlso
  obtain ⟨top, one⟩ := ensured_root properRoot inside groundedFirst fitFirst made
  obtain ⟨other, two⟩ := ensured_root properRoot inside groundedSecond fitSecond madeAlso
  -- What the passes clear is at one place, so nothing is left that could tell them apart.
  obtain rfl := one.same_top properRoot two fitFirst agree made madeAlso
  obtain ⟨rfl, fresh, putOut⟩ :=
    pass_putOut properRoot inside one made classified preparedFirst stagedFirst
  obtain ⟨rfl, freshAlso, putOutAlso⟩ :=
    pass_putOut properRoot inside two madeAlso classified preparedSecond stagedSecond
  refine ⟨rfl, top, sameOutput_of_putOut putOut putOutAlso, fresh, freshAlso, ?_⟩
  intro again againReady againLeft againBatch grounded there fit prepared staged
  have ensuredAgain := Ensured.of_fit (segments_of_proper properRoot) grounded fit there
  have madeAgain : again.createDirs (Path.ofReal names) = (.ok (), again) := by
    obtain ⟨front, last, rfl⟩ := (List.eq_nil_or_concat names).resolve_left inside
    rw [List.concat_eq_append] at *
    exact createDirs_there properRoot ensuredAgain.checked ensuredAgain.leads
  obtain ⟨rfl, freshAgain, putOutAgain⟩ :=
    pass_putOut properRoot inside ensuredAgain madeAgain classified prepared staged
  exact ⟨rfl, sameOutput_of_putOut putOut putOutAgain, freshAgain⟩

section Leftovers

open Batch

def leftovers : FileTree :=
  ⟨[(["b"], .directory), (["b", "web.browser"], .directory),
    (["b", "web.browser", "packages"], .directory),
    (["b", "web.browser", "packages", "module.js"], .file "old()".toUTF8 false),
    (["b", "web.browser", "built"], .directory),
    (["b", "web.browser", "built", "module.js"], .file "old()".toUTF8 false),
    (["b", "web.browser", "package.json"], .file "{}".toUTF8 false),
    (["b", "web.browser", "node_modules"], .directory)]⟩

def tidied : FileTree :=
  (leftovers.eraseBelow ["b", "web.browser", "packages"]).erase ["b", "web.browser", "package.json"]

theorem grounded_leftovers : leftovers.Grounded :=
  grounded_of_nodes (by simp [leftovers, get?, find])

theorem linkless_leftovers : leftovers.Linkless [] := by
  intro place target found
  by_cases filled : place = []
  · subst filled
    cases found
  · simpa [leftovers] using mem_nodes filled found

theorem fit_leftovers : FitRoot ⟨leftovers, []⟩ (Path.ofReal ["b", "web.browser"]) := by
  refine fitRoot_of_linkless (by decide) linkless_leftovers ?_
  rintro node ⟨⟩
  exact ⟨_, _, rfl⟩

theorem fit_tidied : FitRoot ⟨tidied, []⟩ (Path.ofReal ["b", "web.browser"]) := by
  have linkless := (part_eraseBelow leftovers ["b", "web.browser", "packages"]).linkless
    linkless_leftovers
  refine fitRoot_of_linkless (by decide) ((part_erase _ _).linkless linkless) ?_
  rintro node ⟨⟩

theorem grounded_tidied : tidied.Grounded := by
  refine (grounded_leftovers.eraseBelow _).erase (fun name => ?_)
  rw [get?_eraseBelow]
  simp [leftovers, get?, find]

theorem tidied_elsewhere {spot : RealPath}
    (free : ∀ top, RootAt ⟨leftovers, []⟩ plainRoot top → ¬ Output top spot) :
    tidied.get? spot = leftovers.get? spot := by
  have apart := free ["b", "web.browser"] rfl
  have notManifest : ¬ (spot = ["b", "web.browser", "package.json"] ∧ spot ≠ []) :=
    fun here => apart (Or.inr here.1)
  have outside : ¬ isBelow ["b", "web.browser", "packages"] spot = true :=
    fun below => apart (Or.inl (Or.inl (within_iff.mpr (Or.inr below))))
  rw [tidied, get?_erase, if_neg notManifest, get?_eraseBelow, if_neg outside]

/-- Two passes over one module, of which only the first finds a source and a manifest. -/
theorem module_over_leftovers : ∃ firstReady secondReady firstLeft secondLeft batch top,
    (prepare plainRoot false).onDisk ⟨leftovers, []⟩ = (.ok (), firstReady) ∧
    (stage plainSettings .empty plainRoot ([widgetModule].map (classify plainSettings))
      (startConfig plainSettings browser plainRoot)).onDisk firstReady =
      (.ok batch, firstLeft) ∧
    (prepare plainRoot false).onDisk ⟨tidied, []⟩ = (.ok (), secondReady) ∧
    (stage plainSettings .empty plainRoot ([widgetModule].map (classify plainSettings))
      (startConfig plainSettings browser plainRoot)).onDisk secondReady =
      (.ok batch, secondLeft) ∧
    SameOutput top firstLeft secondLeft ∧ Fresh plainRoot top ⟨leftovers, []⟩ firstLeft := by
  have prepares : ((prepare plainRoot false).onDisk ⟨leftovers, []⟩).1.isOk = true ∧
      ((prepare plainRoot false).onDisk ⟨tidied, []⟩).1.isOk = true := by
    decide +kernel
  have stages : ((stage plainSettings .empty plainRoot ([widgetModule].map (classify plainSettings))
      (startConfig plainSettings browser plainRoot)).onDisk
      ((prepare plainRoot false).onDisk ⟨leftovers, []⟩).2).1.isOk = true ∧
      ((stage plainSettings .empty plainRoot ([widgetModule].map (classify plainSettings))
      (startConfig plainSettings browser plainRoot)).onDisk
      ((prepare plainRoot false).onDisk ⟨tidied, []⟩).2).1.isOk = true := by
    decide +kernel
  rcases preparedFirst : (prepare plainRoot false).onDisk ⟨leftovers, []⟩ with
    ⟨_ | ⟨⟩, firstReady⟩
  · rw [preparedFirst] at prepares
    cases prepares.1
  rcases preparedSecond : (prepare plainRoot false).onDisk ⟨tidied, []⟩ with
    ⟨_ | ⟨⟩, secondReady⟩
  · rw [preparedSecond] at prepares
    cases prepares.2
  rw [preparedFirst, preparedSecond] at stages
  rcases stagedFirst : (stage plainSettings .empty plainRoot
      ([widgetModule].map (classify plainSettings))
      (startConfig plainSettings browser plainRoot)).onDisk firstReady with
    ⟨_ | firstBatch, firstLeft⟩
  · rw [stagedFirst] at stages
    cases stages.1
  rcases stagedSecond : (stage plainSettings .empty plainRoot
      ([widgetModule].map (classify plainSettings))
      (startConfig plainSettings browser plainRoot)).onDisk secondReady with
    ⟨_ | secondBatch, secondLeft⟩
  · rw [stagedSecond] at stages
    cases stages.2
  have ordinary : ∀ file ∈ [widgetModule], file.IsOrdinary := by
    simpa using isOrdinary_widgetModule
  obtain ⟨rfl, top, same, fresh, -⟩ := pass_leaves_nothing_stale (by simp) build_plainDraft ordinary
    grounded_leftovers grounded_tidied fit_leftovers fit_tidied
    (fun spot free => tidied_elsewhere free) preparedFirst stagedFirst
    preparedSecond stagedSecond
  exact ⟨firstReady, secondReady, firstLeft, secondLeft, _, top, rfl, stagedFirst, rfl,
    stagedSecond, same, fresh⟩

/-- The directory of the chunks is a link, and the way to the root goes through it. -/
def looped : FileTree :=
  ⟨[(["r"], .directory), (["r", "web.browser"], .directory),
    (["r", "web.browser", "node_modules"], .directory),
    (["r", "web.browser", "built"], .link "..")]⟩

def loopedDraft : Settings.Draft :=
  { plainDraft with stagingBase := some ⟨"/r/web.browser/built"⟩ }

def loopedSettings : Settings :=
  { plainSettings with stagingBase := Path.absolutize [] ⟨"/r/web.browser/built"⟩ }

def loopedRoot : Path := loopedSettings.stagingRoot browser

def loopedStage : Work StagedBatch :=
  stage loopedSettings .empty loopedRoot ([widgetModule].map (classify loopedSettings))
    (startConfig loopedSettings browser loopedRoot)

-- The link leads up, and from there back to where it stands.
theorem rootAt_looped : RootAt ⟨looped, []⟩ loopedRoot ["r", "web.browser"] := by
  have path : loopedRoot = Path.ofReal ["r", "web.browser", "built", "web.browser"] := by
    decide +kernel
  have entry : ∀ name ∈ ["r", "web.browser", "built"], IsEntryName name := by
    intro name listed
    simp only [List.mem_cons, List.not_mem_nil, or_false] at listed
    rcases listed with rfl | rfl | rfl <;> exact ⟨by decide, by decide, by decide⟩
  have steps : stepsOf ".." = [".."] := by decide +kernel
  rw [path, rootAt_iff (by decide)]
  refine ⟨by decide +kernel, ?_⟩
  refine Walks.enter (entry "r" (by simp)) rfl (.enter (entry "web.browser" (by simp)) rfl
    (.jump (entry "built" (by simp)) rfl (Or.inr rfl) ?_))
  rw [steps]
  exact .up (.enter (entry "web.browser" (by simp)) rfl .done)

/-- The pass takes the link away. Its path leads to another root then, where nothing of what was in
the old one can be found; and the old directory of the chunks holds the new root. -/
theorem looped_root_is_lost : ∃ ready batch left top, loopedDraft.build [] = .ok loopedSettings ∧
    looped.Grounded ∧ widgetModule.IsOrdinary ∧ RootAt ⟨looped, []⟩ loopedRoot top ∧
    looped.get? (top ++ [packagesDir]) = none ∧
    looped.get? (top ++ [builtDir]) = some (.link "..") ∧
    looped.get? (top ++ [manifestFile]) = none ∧
    (prepare loopedRoot false).onDisk ⟨looped, []⟩ = (.ok (), ready) ∧
    loopedStage.onDisk ready = (.ok batch, left) ∧
    Disk.exists? ⟨looped, []⟩ (loopedRoot / "node_modules") = true ∧
    left.exists? (loopedRoot / "node_modules") = false ∧
    left.tree.get? (top ++ [builtDir, "web.browser"]) ≠ none := by
  have prepares : ((prepare loopedRoot false).onDisk ⟨looped, []⟩).1.isOk = true ∧
      Disk.exists? ⟨looped, []⟩ (loopedRoot / "node_modules") = true := by
    decide +kernel
  have stages :
      (loopedStage.onDisk ((prepare loopedRoot false).onDisk ⟨looped, []⟩).2).1.isOk = true ∧
      (loopedStage.onDisk ((prepare loopedRoot false).onDisk ⟨looped, []⟩).2).2.exists?
        (loopedRoot / "node_modules") = false ∧
      ((loopedStage.onDisk ((prepare loopedRoot false).onDisk ⟨looped, []⟩).2).2.tree.get?
        ["r", "web.browser", "built", "web.browser"]).isSome = true := by
    decide +kernel
  rcases prepared : (prepare loopedRoot false).onDisk ⟨looped, []⟩ with ⟨_ | ⟨⟩, ready⟩
  · rw [prepared] at prepares
    cases prepares.1
  rw [prepared] at stages
  dsimp only at stages
  rcases staged : loopedStage.onDisk ready with ⟨_ | batch, left⟩
  · rw [staged] at stages
    cases stages.1
  rw [staged] at stages
  obtain ⟨-, gone, moved⟩ := stages
  refine ⟨ready, batch, left, ["r", "web.browser"], rfl, ?_, isOrdinary_widgetModule,
    rootAt_looped, rfl, rfl, rfl, rfl, staged, prepares.2, gone, ?_⟩
  · exact grounded_of_nodes (by simp [looped, get?, find])
  · exact Option.isSome_iff_ne_none.mp moved

end Leftovers

end Staging

end PlatformBundle
