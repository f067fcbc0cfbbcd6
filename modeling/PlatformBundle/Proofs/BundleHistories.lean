import Mathlib.Data.List.TakeWhile
import PlatformBundle.Proofs.BundleSteps
import PlatformBundle.Proofs.PlatformRoots
import PlatformBundle.Proofs.TreeChanges
/-!
The description of a bundle after any history. Entries, fallbacks and the trees of installed
packages may be added in any order, each time on another disk, and looking for trees may fail half
way. Whatever has happened, the entries are those that were added, and the fallbacks are the
directories that were offered, each once and where it was offered first.
-/

namespace PlatformBundle

theorem FileTree.children_eq_nil_iff (tree : FileTree) (top : RealPath) :
    tree.children top = [] ↔ tree.hasBelow top = false := by
  have stands (name : String) : name ∈ tree.children top ↔
      ∃ entry ∈ tree.nodes, isBelow top entry.1 = true ∧
        (entry.1.drop top.length).head? = some name := by
    rw [children, KeyMap.mem_keys_iff, KeySet.contains_ofKeys, List.mem_filterMap]
    simp only [Option.ite_none_right_eq_some]
  constructor
  · intro empty
    by_contra filled
    rw [Bool.not_eq_false, hasBelow, List.any_eq_true] at filled
    obtain ⟨entry, listed, below⟩ := filled
    obtain ⟨rest, more, spelled⟩ := (isBelow_iff _ _).mp below
    obtain ⟨name, others, rfl⟩ := List.exists_cons_of_ne_nil more
    have child := (stands name).mpr ⟨entry, listed, below, by simp [spelled]⟩
    rw [empty] at child
    cases child
  · intro bare
    rw [List.eq_nil_iff_forall_not_mem]
    intro name child
    obtain ⟨entry, listed, below, -⟩ := (stands name).mp child
    have filled : tree.hasBelow top = true := List.any_eq_true.mpr ⟨entry, listed, below⟩
    rw [bare] at filled
    cases filled

namespace Disk

def isFilled (disk : Disk) (path : Path) : Bool :=
  match disk.stat path with
  | .ok (place, .directory) => disk.tree.hasBelow place
  | _ => false

/-- Why a path cannot be listed. A path that is missing or blocked by a file has nothing to list. -/
def hindrance (disk : Disk) (path : Path) : Option IoCause :=
  match disk.stat path with
  | .error .notFound => none
  | .error .notDirectory => none
  | .error cause => some cause
  | .ok _ => none

/-- The path leads to a directory, and there is something in it. -/
def IsFilled (disk : Disk) (path : Path) : Prop :=
  ∃ place, disk.stat path = .ok (place, .directory) ∧
    ∃ below, below ≠ [] ∧ disk.tree.get? (place ++ below) ≠ none

theorem isFilled_iff (disk : Disk) (path : Path) :
    disk.isFilled path = true ↔ disk.IsFilled path := by
  have stands (place : RealPath) : disk.tree.hasBelow place = true ↔
      ∃ below, below ≠ [] ∧ disk.tree.get? (place ++ below) ≠ none := by
    have listed := @FileTree.listed_below_iff disk.tree place (fun _ => True)
    simpa [FileTree.hasBelow] using listed
  unfold isFilled IsFilled
  split
  · rename_i place found
    simp [found, stands]
  · rename_i other
    constructor
    · intro wrong
      cases wrong
    · rintro ⟨place, found, -⟩
      exact absurd found (other place)

instance (disk : Disk) (path : Path) : Decidable (disk.IsFilled path) :=
  decidable_of_iff _ (disk.isFilled_iff path)

theorem isFilled_eq (disk : Disk) (path : Path) :
    disk.isFilled path = decide (disk.IsFilled path) := by
  rw [Bool.eq_iff_iff, isFilled_iff, decide_eq_true_iff]

end Disk

theorem Files.hasEntries_onDisk (path : Path) (disk : Disk) :
    ((hasEntries path).onDisk disk).1 =
      match disk.hindrance path with
      | some cause => .error (.onPath "reading directory" path cause)
      | none => .ok (decide (disk.IsFilled path)) := by
  rw [← Disk.isFilled_eq, hasEntries, FileWork.onDisk_bind, FileWork.onDisk_ask]
  rcases stands : disk.stat path with cause | ⟨place, node⟩
  · have listed : disk.list path = .error cause := by rw [Disk.list, stands]; rfl
    simp only [DiskCall.answer, listed, Disk.hindrance, Disk.isFilled, stands]
    cases cause <;> rfl
  · cases node with
    | directory =>
        have listed : disk.list path = .ok (disk.tree.children place) := by
          rw [Disk.list, stands]
          rfl
        have bare : (!(disk.tree.children place).isEmpty) = disk.tree.hasBelow place := by
          have same := disk.tree.children_eq_nil_iff place
          rw [← List.isEmpty_iff] at same
          cases filled : disk.tree.hasBelow place <;> simp_all
        simp only [DiskCall.answer, listed, Disk.hindrance, Disk.isFilled, stands, ← bare]
        rfl
    | file content executable =>
        have listed : disk.list path = .error .notDirectory := by rw [Disk.list, stands]; rfl
        simp only [DiskCall.answer, listed, Disk.hindrance, Disk.isFilled, stands]
        rfl
    | link target =>
        have listed : disk.list path = .error .notDirectory := by rw [Disk.list, stands]; rfl
        simp only [DiskCall.answer, listed, Disk.hindrance, Disk.isFilled, stands]
        rfl

namespace Path

theorem sameAs_iff {first second : Path} :
    first.sameAs second = true ↔ first.components = second.components := by
  rw [sameAs, beq_iff_eq]

/-- The path is in the list, perhaps with another text. -/
def isAmong (paths : List Path) (path : Path) : Bool := paths.any (·.sameAs path)

/-- What a list of paths adds to those that are present: each path once, where it comes first. -/
def newBeside (present paths : List Path) : List Path :=
  (paths.filter (fun path => !isAmong present path)).eraseDupsBy sameAs

theorem newBeside_of_known {present : List Path} {path : Path}
    (known : isAmong present path = true) (rest : List Path) :
    newBeside present (path :: rest) = newBeside present rest := by
  rw [newBeside, List.filter_cons_of_neg (by simp [known]), newBeside]

theorem newBeside_of_new {present : List Path} {path : Path}
    (new : isAmong present path = false) (rest : List Path) :
    newBeside present (path :: rest) = path :: newBeside (present ++ [path]) rest := by
  have later (other : Path) : (!isAmong (present ++ [path]) other) =
      (decide (other.sameAs path = false) && !isAmong present other) := by
    have symmetric : path.sameAs other = other.sameAs path := by
      rw [sameAs, sameAs, BEq.comm]
    rw [isAmong, List.any_append, List.any_cons, List.any_nil, Bool.or_false, symmetric, isAmong]
    cases present.any (·.sameAs other) <;> cases other.sameAs path <;> rfl
  rw [newBeside, List.filter_cons_of_pos (by simp [new]), List.eraseDupsBy_cons,
    List.filter_filter, newBeside]
  simp only [later]

theorem newBeside_append (present first second : List Path) :
    newBeside present (first ++ second) =
      newBeside present first ++ newBeside (present ++ newBeside present first) second := by
  induction first generalizing present with
  | nil => simp [newBeside]
  | cons path rest ih =>
      rw [List.cons_append]
      cases known : isAmong present path with
      | true => rw [newBeside_of_known known, newBeside_of_known known, ih]
      | false =>
          rw [newBeside_of_new known, newBeside_of_new known, ih, List.append_assoc,
            List.singleton_append, List.cons_append]

def AllDifferent (paths : List Path) : Prop :=
  paths.Pairwise (fun first second => first.components ≠ second.components)

theorem allDifferent_append_one {paths : List Path} {path : Path} (apart : AllDifferent paths)
    (new : isAmong paths path = false) : AllDifferent (paths ++ [path]) := by
  refine List.pairwise_append.mpr ⟨apart, List.pairwise_singleton .., ?_⟩
  intro other listed last same
  rw [List.mem_singleton.mp same]
  intro components
  have known : isAmong paths path = true :=
    List.any_eq_true.mpr ⟨other, listed, sameAs_iff.mpr components⟩
  rw [new] at known
  cases known

end Path

namespace BundleConfig

def withFallbacks (config : BundleConfig) (paths : List Path) : BundleConfig :=
  { config with fallback := config.fallback ++ paths }

theorem withFallbacks_nil (config : BundleConfig) : config.withFallbacks [] = config := by
  rw [withFallbacks, List.append_nil]

theorem withFallbacks_append (config : BundleConfig) (first second : List Path) :
    (config.withFallbacks first).withFallbacks second = config.withFallbacks (first ++ second) := by
  simp only [withFallbacks, List.append_assoc]

theorem addFallback_of_known {config : BundleConfig} {path : Path}
    (known : Path.isAmong config.fallback path = true) : config.addFallback path = config :=
  if_pos known

theorem addFallback_of_new {config : BundleConfig} {path : Path}
    (new : Path.isAmong config.fallback path = false) :
    config.addFallback path = config.withFallbacks [path] :=
  if_neg (Bool.eq_false_iff.mp new)

theorem foldl_addFallback (paths : List Path) (config : BundleConfig) :
    paths.foldl addFallback config =
      config.withFallbacks (Path.newBeside config.fallback paths) := by
  induction paths generalizing config with
  | nil => exact config.withFallbacks_nil.symm
  | cons path rest ih =>
      rw [List.foldl_cons]
      cases known : Path.isAmong config.fallback path with
      | true => rw [addFallback_of_known known, ih, Path.newBeside_of_known known]
      | false =>
          rw [addFallback_of_new known, ih, withFallbacks_append, Path.newBeside_of_new known]
          rfl

theorem addFallback_apart {config : BundleConfig} (path : Path)
    (apart : Path.AllDifferent config.fallback) :
    Path.AllDifferent (config.addFallback path).fallback := by
  cases known : Path.isAmong config.fallback path with
  | true => rwa [addFallback_of_known known]
  | false =>
      rw [addFallback_of_new known]
      exact Path.allDifferent_append_one apart known

section Trees

def treeOf (root : Path) (name : StagingName) : Path :=
  root / "node_modules" / name.text / "node_modules"

variable (disk : Disk) (root : Path)

def treeFault (name : StagingName) : Option Fault :=
  (disk.hindrance (treeOf root name)).map (.onPath "reading directory" (treeOf root name))

/-- The trees of the named packages that are there and hold something. -/
def filledTrees (names : List StagingName) : List Path :=
  (names.map (treeOf root)).filter (fun tree => disk.IsFilled tree)

/-- The names in front of the first one whose tree cannot be looked for. -/
def reached (names : List StagingName) : List StagingName :=
  names.takeWhile (fun name => (treeFault disk root name).isNone)

theorem finalize_eq (names : List StagingName) (config : BundleConfig) :
    ((config.finalize root names).onDisk disk).1 =
      ((names.findSome? (treeFault disk root)).elim (.ok ()) .error,
        (filledTrees disk root (reached disk root names)).foldl addFallback config) := by
  induction names generalizing config with
  | nil => rfl
  | cons name rest ih =>
      have tree : installedTree root name = treeOf root name := rfl
      rw [finalize_onDisk, Files.hasEntries_onDisk, List.findSome?_cons, reached,
        List.takeWhile_cons, treeFault, tree]
      cases disk.hindrance (treeOf root name) with
      | some cause => rfl
      | none =>
          by_cases filled : disk.IsFilled (treeOf root name)
          · rw [decide_eq_true filled]
            dsimp only
            rw [ih]
            simp [filledTrees, reached, filled]
          · rw [decide_eq_false filled]
            dsimp only
            rw [ih]
            simp [filledTrees, reached, filled]

end Trees

theorem finalize_added (config : BundleConfig) (disk : Disk) (root : Path)
    (names : List StagingName) :
    ((config.finalize root names).onDisk disk).1.2 = config.withFallbacks
      (Path.newBeside config.fallback (filledTrees disk root (reached disk root names))) := by
  rw [finalize_eq, foldl_addFallback]

/-- What can happen to a description once it is begun. Each search for trees has its own disk. -/
inductive Edit where
  | entry (stagedPath : String)
  | fallback (path : Path)
  | trees (disk : Disk) (root : Path) (names : List StagingName)

namespace Edit

def apply (config : BundleConfig) : Edit → BundleConfig
  | .entry stagedPath => config.addEntry stagedPath
  | .fallback path => config.addFallback path
  | .trees disk root names => ((config.finalize root names).onDisk disk).1.2

def offered : Edit → List Path
  | .entry _ => []
  | .fallback path => [path]
  | .trees disk root names => filledTrees disk root (reached disk root names)

variable (config : BundleConfig) (edit : Edit) (edits : List Edit)

theorem apply_fallback : (edit.apply config).fallback =
    config.fallback ++ Path.newBeside config.fallback edit.offered := by
  cases edit with
  | entry stagedPath => exact (List.append_nil _).symm
  | fallback path => exact congrArg BundleConfig.fallback (foldl_addFallback [path] config)
  | trees disk root names => rw [apply, finalize_added, withFallbacks, offered]

theorem foldl_apply_fallback : (edits.foldl apply config).fallback =
    config.fallback ++ Path.newBeside config.fallback (edits.flatMap offered) := by
  induction edits generalizing config with
  | nil => exact (List.append_nil _).symm
  | cons edit rest ih =>
      rw [List.foldl_cons, ih, apply_fallback, List.flatMap_cons, Path.newBeside_append,
        List.append_assoc]

variable {config}

theorem apply_apart (apart : Path.AllDifferent config.fallback) :
    Path.AllDifferent (edit.apply config).fallback := by
  cases edit with
  | entry stagedPath => exact apart
  | fallback path => exact addFallback_apart path apart
  | trees disk root names =>
      rw [apply, finalize_eq]
      generalize filledTrees disk root (reached disk root names) = found
      induction found generalizing config with
      | nil => exact apart
      | cons tree rest ih => exact ih (addFallback_apart tree apart)

theorem foldl_apply_apart (apart : Path.AllDifferent config.fallback) :
    Path.AllDifferent (edits.foldl apply config).fallback := by
  induction edits generalizing config with
  | nil => exact apart
  | cons edit rest ih => exact ih (apply_apart edit apart)

variable (config)

theorem apply_frame : edit.apply config = { config with
    entry := (edit.apply config).entry
    fallback := (edit.apply config).fallback } := by
  cases edit with
  | entry stagedPath => rfl
  | fallback path =>
      rw [apply, addFallback]
      split <;> rfl
  | trees disk root names =>
      rw [apply, finalize_added]
      rfl

theorem foldl_apply_frame : edits.foldl apply config =
    { config with
      entry := (edits.foldl apply config).entry
      fallback := (edits.foldl apply config).fallback } := by
  induction edits generalizing config with
  | nil => rfl
  | cons edit rest ih =>
      rw [List.foldl_cons]
      exact (ih (edit.apply config)).trans (by rw [apply_frame])

theorem apply_entry_iff {key source : String} :
    (edit.apply config).entry.get? key = some source ↔
      edit = .entry key ∧ source = entrySource key ∨
        edit ≠ .entry key ∧ config.entry.get? key = some source := by
  cases edit with
  | entry stagedPath =>
      rw [apply, addEntry, KeyMap.get?_insert, Edit.entry.injEq]
      by_cases same : stagedPath = key
      · simp [same, eq_comm]
      · simp [same]
  | fallback path =>
      have kept : (config.addFallback path).entry = config.entry :=
        (config.addFallback_sameChunks path).1
      simp [apply, kept]
  | trees disk root names =>
      have kept : ((config.finalize root names).onDisk disk).1.2.entry = config.entry :=
        (config.finalize_sameChunks root names disk).1.1
      simp [apply, kept]

theorem foldl_apply_entry_iff {key source : String} :
    (edits.foldl apply config).entry.get? key = some source ↔
      .entry key ∈ edits ∧ source = entrySource key ∨
        .entry key ∉ edits ∧ config.entry.get? key = some source := by
  induction edits generalizing config with
  | nil => simp
  | cons edit rest ih =>
      rw [List.foldl_cons, ih, apply_entry_iff, List.mem_cons, @eq_comm _ (Edit.entry key)]
      tauto

end Edit

inductive Searched (config : BundleConfig) (disk : Disk) (root : Path) (names : List StagingName) :
    Except Fault Unit × BundleConfig → Prop where
  | complete (free : ∀ name ∈ names, disk.hindrance (treeOf root name) = none) :
      Searched config disk root names (.ok (),
        config.withFallbacks (Path.newBeside config.fallback (filledTrees disk root names)))
  | stopped (before : List StagingName) (name : StagingName) (after : List StagingName)
      (cause : IoCause) (cut : names = before ++ name :: after)
      (free : ∀ other ∈ before, disk.hindrance (treeOf root other) = none)
      (hindered : disk.hindrance (treeOf root name) = some cause) :
      Searched config disk root names
        (.error (.onPath "reading directory" (treeOf root name) cause),
          config.withFallbacks (Path.newBeside config.fallback (filledTrees disk root before)))

theorem finalize_searched (config : BundleConfig) (disk : Disk) (root : Path)
    (names : List StagingName) :
    Searched config disk root names ((config.finalize root names).onDisk disk).1 := by
  have none_iff (name : StagingName) : treeFault disk root name = none ↔
      disk.hindrance (treeOf root name) = none := Option.map_eq_none_iff
  rw [finalize_eq, foldl_addFallback]
  cases fault : names.findSome? (treeFault disk root) with
  | none =>
      have clear := List.findSome?_eq_none_iff.mp fault
      have whole : reached disk root names = names :=
        List.takeWhile_eq_self_iff.mpr (fun name listed => by simp [clear name listed])
      rw [whole]
      exact .complete (fun name listed => (none_iff name).mp (clear name listed))
  | some told =>
      obtain ⟨before, name, after, cut, found, clear⟩ := List.findSome?_eq_some_iff.mp fault
      obtain ⟨cause, hindered, rfl⟩ := Option.map_eq_some_iff.mp found
      have part : reached disk root names = before := by
        rw [reached, cut, List.takeWhile_append_of_pos (fun other listed => by
          simp [clear other listed]), List.takeWhile_cons_of_neg (by simp [found]), List.append_nil]
      rw [part]
      exact .stopped before name after cause cut
        (fun other listed => (none_iff other).mp (clear other listed)) hindered

/-- A description after any history of edits, and what one more search for trees does to it. Two
paths are the same when their components are, and a name that is joined on is one more component. -/
theorem description_after_edits (root : Path) (sharedChunk : String) (globalObject : Option String)
    (edits : List Edit) :
    let config := edits.foldl Edit.apply (start root sharedChunk globalObject)
    (∀ key source, config.entry.get? key = some source ↔
      .entry key ∈ edits ∧ source = "./packages/" ++ key) ∧
    Path.AllDifferent config.fallback ∧
    config.fallback = (edits.flatMap Edit.offered).eraseDupsBy Path.sameAs ∧
    (config.outputPath = root / "built" ∧ config.chunkPattern = "[name]" ∧
      config.globalObject = globalObject ∧ config.sharedChunk = sharedChunk) ∧
    (∀ (base : Path) (name : String), IsProper name →
      (base / name).components = base.components ++ [.name name]) ∧
    ∀ disk stagingRoot names, Searched config disk stagingRoot names
      ((config.finalize stagingRoot names).onDisk disk).1 := by
  intro config
  have fresh (paths : List Path) : Path.newBeside [] paths = paths.eraseDupsBy Path.sameAs := by
    have all : paths.filter (fun path => !Path.isAmong [] path) = paths :=
      List.filter_eq_self.mpr (fun _ _ => rfl)
    rw [Path.newBeside, all]
  have frame := Edit.foldl_apply_frame (start root sharedChunk globalObject) edits
  refine ⟨?_, ?_, ?_, ?_, fun base name => Path.components_div base, ?_⟩
  · intro key source
    rw [Edit.foldl_apply_entry_iff, entrySource_text]
    simp [start]
  · exact Edit.foldl_apply_apart edits List.Pairwise.nil
  · rw [Edit.foldl_apply_fallback]
    exact fresh _
  · exact ⟨congrArg outputPath frame, congrArg chunkPattern frame,
      congrArg BundleConfig.globalObject frame, congrArg BundleConfig.sharedChunk frame⟩
  · exact finalize_searched config

end BundleConfig

end PlatformBundle
