import PlatformBundle.Proofs.OpenWays
import PlatformBundle.Proofs.StagingRoot
import PlatformBundle.Proofs.TwinDisks
/-!
What is put below the directory of all packages, piece by piece. Whether a piece can be put depends
on what stands there, and one that is put is in the way of another only where a file and a directory
would have one place. So a row of pieces can be put if each of them can and no two are at odds, and
the pieces alone decide what stands there in the end, in whatever order they come.
-/

namespace PlatformBundle

open FileTree Disk

/-- A directory, or a file with a text, below the directory of all packages. -/
structure Piece where
  names : List String
  text : Option String

namespace View

variable {view : View} {top place : RealPath}

theorem passable_withDirs : (view.withDirs top).Passable place ↔ view.Passable place := by
  unfold Passable withDirs
  rcases view place with _ | node
  · split <;> simp
  · simp

theorem writable_withDirs : (view.withDirs top).Writable place ↔
    view.Writable place ∧ (place <+: top → view place ≠ none) := by
  unfold Writable withDirs
  rcases view place with _ | node
  · by_cases above : place <+: top <;> simp [above]
  · simp

theorem executable_withDirs : executable (view.withDirs top place) = executable (view place) := by
  unfold withDirs
  rcases view place with _ | node
  · split <;> rfl
  · rfl

theorem withFile_top (content : ByteArray) :
    view.withFile top content top = some (.file content (executable (view top))) := if_pos rfl

theorem withFile_elsewhere {content : ByteArray} (elsewhere : place ≠ top) :
    view.withFile top content place = view.withDirs top place := if_neg elsewhere

theorem withDirs_comm (view : View) (top other : RealPath) :
    (view.withDirs top).withDirs other = (view.withDirs other).withDirs top := by
  funext place
  unfold withDirs
  rcases view place with _ | node
  · split <;> split <;> simp
  · simp

theorem withFile_withDirs (content : ByteArray) (other : RealPath) :
    (view.withDirs other).withFile top content = (view.withFile top content).withDirs other := by
  funext place
  by_cases here : place = top
  · subst here
    rw [withFile_top, executable_withDirs, withDirs_taken (withFile_top content)]
  · have same := congrFun (withDirs_comm view other top) place
    have elsewhere : view.withFile top content place = view.withDirs top place :=
      withFile_elsewhere here
    rw [withFile_elsewhere here, same]
    unfold withDirs at elsewhere ⊢
    rw [elsewhere]

theorem withFile_comm (content more : ByteArray) {other : RealPath} (apart : top ≠ other) :
    (view.withFile top content).withFile other more =
      (view.withFile other more).withFile top content := by
  funext place
  by_cases here : place = top
  · subst here
    rw [withFile_elsewhere apart, withDirs_taken (withFile_top content), withFile_top,
      withFile_elsewhere apart, executable_withDirs]
  · by_cases there : place = other
    · subst there
      rw [withFile_top, withFile_elsewhere here, executable_withDirs, withFile_elsewhere here,
        withDirs_taken (withFile_top more)]
    · have same := congrFun (withDirs_comm view top other) place
      simp only [withFile_elsewhere here, withFile_elsewhere there, withDirs] at same ⊢
      exact same

end View

theorem Cleared.twin {disk twin : Disk} {names : List String} {place : RealPath}
    (cleared : Cleared disk.tree names place) (twins : Twins disk twin) :
    Cleared twin.tree names place := by
  have same := twins.same
  refine ⟨?_, ?_, ?_⟩
  · intro above name stands
    rw [← same] at stands ⊢
    exact cleared.grounded above name stands
  · apply walks_of_walk
    rw [← walk_twin same]
    exact walk_of_walks cleared.leads
  · intro rest target found
    rw [← same] at found
    exact cleared.sources rest target found

namespace Piece

def way (piece : Piece) : List String := packagesDir :: piece.names

def IsFile (piece : Piece) : Prop := piece.text ≠ none

def path (names : List String) (piece : Piece) : Path := Path.ofReal (names ++ piece.way)

def put (names : List String) (piece : Piece) : FileWork Unit :=
  match piece.text with
  | none => Files.makeDir (piece.path names)
  | some text => Files.write (piece.path names) text

def onto (place : RealPath) (view : View) (piece : Piece) : View :=
  match piece.text with
  | none => view.withDirs (place ++ piece.way)
  | some text => view.withFile (place ++ piece.way) text.toUTF8

structure IsNamed (piece : Piece) : Prop where
  filled : piece.names ≠ []
  proper : ∀ name ∈ piece.names, IsProper name

structure IsSpelled (names : List String) (piece : Piece) : Prop where
  checked : checkText (piece.path names).text = .ok ()
  short : ∀ name ∈ piece.way, name.utf8ByteSize ≤ longestName

structure Fits (place : RealPath) (view : View) (piece : Piece) : Prop where
  passes : ∀ front, front <+: piece.way → (piece.IsFile → front ≠ piece.way) →
    view.Passable (place ++ front)
  ends : piece.IsFile → view.Writable (place ++ piece.way)

structure Blocks (first second : Piece) : Prop where
  file : first.IsFile
  inside : first.names <+: second.names
  differ : second.IsFile → first.names ≠ second.names

def AtOdds (first second : Piece) : Prop := first.Blocks second ∨ second.Blocks first

theorem AtOdds.symm {first second : Piece} (odds : first.AtOdds second) : second.AtOdds first :=
  Or.symm odds

section Views

variable {place other : RealPath} {view : View} {first second : Piece}

theorem way_injective (same : first.way = second.way) : first.names = second.names :=
  (List.cons.inj same).2

theorem way_prefix_iff : first.way <+: second.way ↔ first.names <+: second.names := by
  unfold way
  rw [List.cons_prefix_cons]
  exact and_iff_right rfl

theorem onto_file (place : RealPath) (view : View) (file : first.IsFile) : ∃ content executable,
    first.onto place view (place ++ first.way) = some (.file content executable) := by
  obtain ⟨text, same⟩ := Option.ne_none_iff_exists'.mp file
  refine ⟨text.toUTF8, View.executable (view (place ++ first.way)), ?_⟩
  rw [onto, same]
  exact if_pos rfl

theorem onto_elsewhere (elsewhere : first.IsFile → other ≠ place ++ first.way) :
    first.onto place view other = view.withDirs (place ++ first.way) other := by
  unfold onto
  cases text : first.text with
  | none => rfl
  | some text => exact if_neg (elsewhere (by simp [IsFile, text]))

theorem passable_onto (elsewhere : first.IsFile → other ≠ place ++ first.way) :
    View.Passable (first.onto place view) other ↔ view.Passable other := by
  have same : View.Passable (first.onto place view) other ↔
      (view.withDirs (place ++ first.way)).Passable other := by
    rw [View.Passable, onto_elsewhere elsewhere]
    rfl
  exact same.trans View.passable_withDirs

theorem writable_onto (elsewhere : first.IsFile → other ≠ place ++ first.way) :
    View.Writable (first.onto place view) other ↔
      view.Writable other ∧ (other <+: place ++ first.way → view other ≠ none) := by
  rw [← View.writable_withDirs, View.Writable, onto_elsewhere elsewhere]
  rfl

theorem not_passable_file {content : ByteArray} {executable : Bool}
    (found : view other = some (.file content executable)) : ¬ view.Passable other := by
  simp [View.Passable, found]

theorem fits_of_onto (fits : first.Fits place view)
    (after : second.Fits place (first.onto place view)) :
    second.Fits place view ∧ ¬ first.AtOdds second := by
  have passes : ∀ front, front <+: second.way → (second.IsFile → front ≠ second.way) →
      (first.IsFile → place ++ front ≠ place ++ first.way) ∧ view.Passable (place ++ front) := by
    intro front inside open'
    have passable := after.passes front inside open'
    have elsewhere : first.IsFile → place ++ front ≠ place ++ first.way := by
      intro file here
      obtain ⟨content, executable, found⟩ := onto_file place view file
      exact not_passable_file found (here ▸ passable)
    exact ⟨elsewhere, (passable_onto elsewhere).mp passable⟩
  refine ⟨⟨fun front inside open' => (passes front inside open').2, fun file => ?_⟩, ?_⟩
  · by_cases here : first.IsFile ∧ second.way = first.way
    · rw [here.2]
      exact fits.ends here.1
    · refine ((writable_onto fun isFile same => ?_).mp (after.ends file)).1
      exact here ⟨isFile, List.append_cancel_left same⟩
  · rintro (⟨file, inside, differ⟩ | ⟨file, inside, differ⟩)
    · refine (passes first.way (way_prefix_iff.mpr inside) ?_).1 file rfl
      exact fun isFile same => differ isFile (way_injective same)
    -- The file of the second piece would be where the first one has put a directory.
    · have elsewhere : first.IsFile → second.way ≠ first.way :=
        fun isFile same => differ isFile (way_injective same)
      have higher := way_prefix_iff.mpr inside
      obtain ⟨writable, stands⟩ := (writable_onto fun isFile same =>
        elsewhere isFile (List.append_cancel_left same)).mp (after.ends file)
      obtain ⟨node, found⟩ := Option.ne_none_iff_exists'.mp
        (stands ((List.prefix_append_right_inj place).mpr higher))
      obtain ⟨content, executable, rfl⟩ := writable node found
      exact not_passable_file found (fits.passes second.way higher elsewhere)

theorem Fits.onto (before : second.Fits place view) (apart : ¬ first.AtOdds second) :
    second.Fits place (first.onto place view) := by
  constructor
  · intro front inside open'
    refine (passable_onto fun file same => ?_).mpr (before.passes front inside open')
    obtain rfl := List.append_cancel_left same
    refine apart (Or.inl ⟨file, way_prefix_iff.mp inside, fun isFile names => ?_⟩)
    exact open' isFile (congrArg (packagesDir :: ·) names)
  · intro file
    by_cases here : first.IsFile ∧ second.way = first.way
    · rw [here.2]
      obtain ⟨content, executable, found⟩ := onto_file place view here.1
      intro node same
      rw [found] at same
      exact ⟨content, executable, (Option.some.inj same).symm⟩
    · have elsewhere : first.IsFile → second.way ≠ first.way :=
        fun isFile same => here ⟨isFile, same⟩
      refine (writable_onto fun isFile same =>
        elsewhere isFile (List.append_cancel_left same)).mpr ⟨before.ends file, ?_⟩
      intro higher
      have inside := (List.prefix_append_right_inj place).mp higher
      refine absurd (Or.inr ⟨file, way_prefix_iff.mp inside, fun isFile names => ?_⟩) apart
      exact elsewhere isFile (congrArg (packagesDir :: ·) names)

/-- Once a piece is put, another fits as before, unless the two are at odds. -/
theorem fits_onto_iff (fits : first.Fits place view) :
    second.Fits place (first.onto place view) ↔
      second.Fits place view ∧ ¬ first.AtOdds second :=
  ⟨fits_of_onto fits, fun both => both.1.onto both.2⟩

/-- Two pieces can be put in either order, unless both are files and have one place. -/
theorem onto_comm (apart : first.IsFile → second.IsFile → first.names ≠ second.names) :
    second.onto place (first.onto place view) = first.onto place (second.onto place view) := by
  unfold onto
  cases early : first.text with
  | none =>
      cases late : second.text with
      | none => exact View.withDirs_comm _ _ _
      | some text => exact View.withFile_withDirs _ _
  | some text =>
      cases late : second.text with
      | none => exact (View.withFile_withDirs _ _).symm
      | some more =>
          refine View.withFile_comm _ _ (fun same => ?_)
          exact apart (by simp [IsFile, early]) (by simp [IsFile, late])
            (way_injective (List.append_cancel_left same))

end Views

section Putting

variable {disk left : Disk} {names : List String} {place : RealPath} {piece : Piece}
  {pieces others : List Piece}

theorem IsNamed.ends (named : piece.IsNamed) : ∃ above last, piece.names = above ++ [last] := by
  obtain ⟨above, last, same⟩ := (List.eq_nil_or_concat piece.names).resolve_left named.filled
  exact ⟨above, last, by rw [same, List.concat_eq_append]⟩

theorem IsNamed.proper_way (named : piece.IsNamed) (proper : ∀ name ∈ names, IsProper name) :
    ∀ name ∈ names ++ piece.way, IsProper name := by
  intro name listed
  rcases List.mem_append.mp listed with above | inside
  · exact proper name above
  · rcases List.mem_cons.mp inside with rfl | own
    · exact isProper_packagesDir
    · exact named.proper name own

theorem unlinked_way (cleared : Cleared disk.tree names place) :
    Unlinked disk.tree place piece.way := by
  intro front target inside
  cases front with
  | nil =>
      rw [List.append_nil, cleared.leads.stands cleared.grounded]
      simp
  | cons first rest =>
      obtain ⟨rfl, -⟩ := List.cons_prefix_cons.mp inside
      simpa using cleared.sources rest target

variable (cleared : Cleared disk.tree names place) (proper : ∀ name ∈ names, IsProper name)
include cleared proper

theorem fits_of_put (named : piece.IsNamed)
    (done : (piece.put names).onDisk disk = (.ok (), left)) :
    piece.IsSpelled names ∧ piece.Fits place disk.tree.get? := by
  have properWay := named.proper_way proper
  have clear : Unlinked disk.tree place piece.way := unlinked_way cleared
  unfold put path at done
  cases text : piece.text with
  | none =>
      have directory : ¬ piece.IsFile := fun file => file text
      rw [text] at done
      obtain ⟨checked, short, passes⟩ := createDirs_passes cleared.leads cleared.grounded
        properWay (List.cons_ne_nil _ _) clear (Files.makeDir_ok_iff.mp done)
      exact ⟨⟨checked, short⟩, fun front within _ => passes front within, (absurd · directory)⟩
  | some text' =>
      obtain ⟨above, last, ending⟩ := named.ends
      have way : piece.way = (packagesDir :: above) ++ [last] := by rw [Piece.way, ending]; rfl
      rw [text] at done
      dsimp only at done
      rw [way] at properWay clear done
      obtain ⟨checked, short, passes, writable⟩ := Files.write_passes cleared.leads
        cleared.grounded properWay (List.cons_ne_nil _ _) clear done
      rw [← way] at checked short writable
      refine ⟨⟨checked, short⟩, fun front within open' => passes front ?_, fun _ => writable⟩
      have file : piece.IsFile := by simp [IsFile, text]
      rw [way, List.prefix_concat_iff, ← way] at within
      exact within.resolve_left (open' file)

variable (inside : names ≠ [])
include inside

theorem put_of_fits (named : piece.IsNamed) (spelled : piece.IsSpelled names)
    (fits : piece.Fits place disk.tree.get?) :
    ∃ tree, (piece.put names).onDisk disk = (.ok (), disk.withTree tree) ∧
      tree.get? = piece.onto place disk.tree.get? := by
  have properWay := named.proper_way proper
  have checked : checkText (Path.ofReal (names ++ piece.way)).text = .ok () := spelled.checked
  unfold put onto path
  cases text : piece.text with
  | none =>
      have directory : ¬ piece.IsFile := fun file => file text
      obtain ⟨tree, made, same⟩ := createDirs_way cleared.leads cleared.grounded properWay inside
        checked spelled.short (fun front within => fits.passes front within (absurd · directory))
      exact ⟨tree, Files.makeDir_ok_iff.mpr made, same⟩
  | some text' =>
      have file : piece.IsFile := by simp [IsFile, text]
      obtain ⟨above, last, ending⟩ := named.ends
      have way : piece.way = (packagesDir :: above) ++ [last] := by rw [Piece.way, ending]; rfl
      have passes := fits.passes
      have ends := fits.ends file
      have short := spelled.short
      rw [way] at properWay passes checked ends short ⊢
      refine Files.write_open cleared.leads cleared.grounded properWay inside checked short ?_ ends
      intro front within
      refine passes front (within.trans (List.prefix_append _ _)) (fun _ whole => ?_)
      rw [whole] at within
      have longer := within.length_le
      rw [List.length_append, List.length_singleton] at longer
      omega

theorem put_onto (named : piece.IsNamed)
    (done : (piece.put names).onDisk disk = (.ok (), left)) :
    Cleared left.tree names place ∧ left.tree.get? = piece.onto place disk.tree.get? := by
  obtain ⟨spelled, fits⟩ := fits_of_put cleared proper named done
  obtain ⟨tree, again, same⟩ := put_of_fits cleared proper inside named spelled fits
  obtain rfl := (Prod.mk.injEq .. ▸ done.symm.trans again).2
  have grown : Grown (fun _ => False) disk.tree tree := by
    unfold put at done
    split at done
    · exact Files.makeDir_grown _ (Path.isAbsolute_ofReal _) cleared.grounded done
    · exact Files.write_grown (Path.isAbsolute_ofReal _) cleared.grounded done
  exact ⟨cleared.grow grown, same⟩

end Putting

def putAll (names : List String) : List Piece → FileWork Unit
  | [] => pure ()
  | piece :: rest => do
      piece.put names
      putAll names rest

section Rows

variable {disk left : Disk} {names : List String} {place : RealPath} {pieces others : List Piece}

theorem putAll_cons_ok_iff {piece : Piece} {rest : List Piece} :
    (putAll names (piece :: rest)).onDisk disk = (.ok (), left) ↔
      ∃ middle, (piece.put names).onDisk disk = (.ok (), middle) ∧
        (putAll names rest).onDisk middle = (.ok (), left) :=
  FileWork.onDisk_then_ok_iff disk

theorem putAll_append_ok_iff :
    (putAll names (pieces ++ others)).onDisk disk = (.ok (), left) ↔
      ∃ middle, (putAll names pieces).onDisk disk = (.ok (), middle) ∧
        (putAll names others).onDisk middle = (.ok (), left) :=
  FileWork.row_append_ok_iff rfl (fun _ _ => rfl)

variable (cleared : Cleared disk.tree names place) (proper : ∀ name ∈ names, IsProper name)
  (inside : names ≠ []) (named : ∀ piece ∈ pieces, piece.IsNamed)
include cleared proper inside named

theorem putAll_onto (done : (putAll names pieces).onDisk disk = (.ok (), left)) :
    Cleared left.tree names place ∧
      left.tree.get? = pieces.foldl (Piece.onto place) disk.tree.get? := by
  induction pieces generalizing disk with
  | nil =>
      cases done
      exact ⟨cleared, rfl⟩
  | cons piece rest ih =>
      obtain ⟨middle, first, later⟩ := putAll_cons_ok_iff.mp done
      obtain ⟨clearedNext, same⟩ :=
        put_onto cleared proper inside (named piece List.mem_cons_self) first
      obtain ⟨clearedLeft, sameLeft⟩ := ih clearedNext
        (fun other listed => named other (List.mem_cons_of_mem _ listed)) later
      exact ⟨clearedLeft, by rw [sameLeft, same, List.foldl_cons]⟩

theorem putAll_iff : (∃ left, (putAll names pieces).onDisk disk = (.ok (), left)) ↔
    (∀ piece ∈ pieces, piece.IsSpelled names ∧ piece.Fits place disk.tree.get?) ∧
      pieces.Pairwise (fun first second => ¬ first.AtOdds second) := by
  induction pieces generalizing disk with
  | nil => simp [putAll, FileWork.onDisk_pure]
  | cons piece rest ih =>
      have own := named piece List.mem_cons_self
      have others : ∀ other ∈ rest, other.IsNamed :=
        fun other listed => named other (List.mem_cons_of_mem _ listed)
      -- Where the first piece can be put, the others fit after it if they fitted before.
      have step {middle : Disk} (first : (piece.put names).onDisk disk = (.ok (), middle)) :
          (∃ left, (putAll names rest).onDisk middle = (.ok (), left)) ↔
            (∀ other ∈ rest, other.IsSpelled names ∧ other.Fits place disk.tree.get? ∧
              ¬ piece.AtOdds other) ∧
            rest.Pairwise (fun first second => ¬ first.AtOdds second) := by
        obtain ⟨clearedNext, same⟩ := put_onto cleared proper inside own first
        obtain ⟨-, fits⟩ := fits_of_put cleared proper own first
        rw [ih clearedNext others, same]
        simp only [fits_onto_iff fits]
      rw [List.pairwise_cons, List.forall_mem_cons]
      constructor
      · rintro ⟨left, done⟩
        obtain ⟨middle, first, later⟩ := putAll_cons_ok_iff.mp done
        obtain ⟨fine, apart⟩ := (step first).mp ⟨left, later⟩
        exact ⟨⟨fits_of_put cleared proper own first,
          fun other listed => ⟨(fine other listed).1, (fine other listed).2.1⟩⟩,
          fun other listed => (fine other listed).2.2, apart⟩
      · rintro ⟨⟨⟨spelled, fits⟩, fine⟩, free, apart⟩
        obtain ⟨tree, first, -⟩ := put_of_fits cleared proper inside own spelled fits
        obtain ⟨left, later⟩ := (step first).mpr ⟨fun other listed =>
          ⟨(fine other listed).1, (fine other listed).2, free other listed⟩, apart⟩
        exact ⟨left, putAll_cons_ok_iff.mpr ⟨_, first, later⟩⟩

/-- The order of the pieces makes no difference, as long as each place has one file at most. -/
theorem putAll_perm {twin : Disk} (twins : Twins disk twin) (permuted : pieces.Perm others)
    (single : ∀ first ∈ pieces, ∀ second ∈ pieces, first.IsFile → second.IsFile →
      first.names = second.names → first = second)
    (done : (putAll names pieces).onDisk disk = (.ok (), left)) :
    ∃ again, (putAll names others).onDisk twin = (.ok (), again) ∧ Twins left again := by
  have namedOthers : ∀ piece ∈ others, piece.IsNamed :=
    fun piece listed => named piece (permuted.mem_iff.mpr listed)
  have clearedTwin := cleared.twin twins
  have able : ∃ left, (putAll names others).onDisk twin = (.ok (), left) := by
    obtain ⟨fine, apart⟩ := (putAll_iff cleared proper inside named).mp ⟨left, done⟩
    rw [twins.same] at fine
    refine (putAll_iff clearedTwin proper inside namedOthers).mpr
      ⟨fun piece listed => fine piece (permuted.mem_iff.mpr listed), ?_⟩
    exact (permuted.pairwise_iff (fun free odds => free odds.symm)).mp apart
  obtain ⟨again, redone⟩ := able
  obtain ⟨-, same⟩ := putAll_onto cleared proper inside named done
  obtain ⟨-, sameAgain⟩ := putAll_onto clearedTwin proper inside namedOthers redone
  refine ⟨again, redone, ⟨?_⟩⟩
  rw [same, sameAgain, twins.same]
  refine permuted.foldl_eq' ?_ _
  intro first early second late view
  by_cases equal : first = second
  · rw [equal]
  · exact onto_comm (fun file isFile names =>
      equal (single first early second late file isFile names))

end Rows

end Piece

end PlatformBundle
