import Mathlib.Data.List.Forall2
import PlatformBundle.Proofs.FileSteps
import PlatformBundle.Stitch
/-!
What stitching comes to. Each file is stitched from one chunk or from none, and what becomes of it
depends on nothing but the file and the disk; that the shared chunk is read only once makes no
difference. So a batch is stitched file by file, and the first chunk that cannot be read ends it.
-/

namespace PlatformBundle

section Rows

variable {ε α β : Type} {f : α → Except ε β} {front rest : List α} {x : α}

theorem mapM_eq_ok_iff {row : List α} {values : List β} :
    row.mapM f = .ok values ↔ List.Forall₂ (fun x value => f x = .ok value) row values := by
  induction row generalizing values with
  | nil => cases values <;> simp [pure, Except.pure]
  | cons x row ih =>
      rw [List.mapM_cons, bind_eq_ok_iff]
      constructor
      · rintro ⟨value, first, others⟩
        obtain ⟨later, done, ends⟩ := bind_eq_ok_iff.mp others
        cases ends
        exact .cons first (ih.mp done)
      · intro done
        cases done with
        | cons first others => exact ⟨_, first, bind_eq_ok_iff.mpr ⟨_, ih.mpr others, rfl⟩⟩

theorem mapM_done_iff {row : List α} :
    (∃ values, row.mapM f = .ok values) ↔ ∀ x ∈ row, ∃ value, f x = .ok value := by
  simp only [mapM_eq_ok_iff]
  induction row with
  | nil => simp
  | cons x row ih =>
      rw [List.forall_mem_cons, ← ih]
      constructor
      · rintro ⟨_, _ | ⟨first, others⟩⟩
        exact ⟨⟨_, first⟩, _, others⟩
      · rintro ⟨⟨value, first⟩, values, others⟩
        exact ⟨value :: values, .cons first others⟩

theorem mapM_eq_error {fault : ε} (done : ∀ y ∈ front, ∃ value, f y = .ok value)
    (failed : f x = .error fault) : (front ++ x :: rest).mapM f = .error fault := by
  induction front with
  | nil =>
      rw [List.nil_append, List.mapM_cons, failed]
      rfl
  | cons y front ih =>
      obtain ⟨⟨value, first⟩, others⟩ := List.forall_mem_cons.mp done
      rw [List.cons_append, List.mapM_cons, first, ih others]
      rfl

end Rows

namespace Stitcher

variable {stitcher : Stitcher} {config : BundleConfig} {disk : Disk}

def chunkOf (config : BundleConfig) (file : Classified) : Option Path :=
  match file.kind with
  | .entry => some (config.entryChunkPath file.stagedPath)
  | .sharedPlaceholder => if config.entry.isEmpty then none else some config.sharedChunkPath
  | .script | .unsupported => none

def readChunk (config : BundleConfig) (disk : Disk) (file : Classified) : Except Fault String :=
  match chunkOf config file with
  | none => .ok ""
  | some path => onPath "reading file" path (disk.readText path)

/-- What stands in the artifact of a file with this chunk. -/
def dataOf (stitcher : Stitcher) (file : Classified) (chunk : String) : String :=
  match file.kind with
  | .entry => stitcher.entryText chunk
  | .sharedPlaceholder => stitcher.sharedText chunk
  | .script | .unsupported => ""

def stitchFile (stitcher : Stitcher) (config : BundleConfig) (disk : Disk) (file : Classified) :
    Except Fault Artifact :=
  (readChunk config disk file).map (fun chunk => artifactOf file (stitcher.dataOf file chunk))

theorem readShared_onDisk (config : BundleConfig) (disk : Disk) : (readShared config).onDisk disk =
    (if config.entry.isEmpty then .ok ""
      else onPath "reading file" config.sharedChunkPath (disk.readText config.sharedChunkPath),
      disk) := by
  unfold readShared
  split
  · rfl
  · exact Files.readText_onDisk

theorem readChunk_eq_ok_iff {file : Classified} :
    (∃ chunk, readChunk config disk file = .ok chunk) ↔
      ∀ path, chunkOf config file = some path → ∃ text, disk.readText path = .ok text := by
  unfold readChunk
  cases chunkOf config file with
  | none => simp
  | some path => simp [onPath_eq_ok_iff]

theorem readChunk_eq_error {file : Classified} {path : Path} {cause : IoCause}
    (needed : chunkOf config file = some path) (failed : disk.readText path = .error cause) :
    readChunk config disk file = .error (.onPath "reading file" path cause) := by
  rw [readChunk, needed]
  exact congrArg (onPath "reading file" path) failed

theorem stitchFile_eq_ok_iff {file : Classified} {artifact : Artifact} :
    stitcher.stitchFile config disk file = .ok artifact ↔
      ∃ chunk, readChunk config disk file = .ok chunk ∧
        artifact = artifactOf file (stitcher.dataOf file chunk) := by
  unfold stitchFile
  cases readChunk config disk file with
  | error fault => simp [Except.map]
  | ok chunk => simp [Except.map, eq_comm]

theorem readChunk_entry {file : Classified} (kind : file.kind = .entry) :
    readChunk config disk file = onPath "reading file" (config.entryChunkPath file.stagedPath)
      (disk.readText (config.entryChunkPath file.stagedPath)) := by
  simp only [readChunk, chunkOf, kind]

theorem readChunk_shared {file : Classified} (kind : file.kind = .sharedPlaceholder) :
    readChunk config disk file = ((readShared config).onDisk disk).1 := by
  rw [readShared_onDisk]
  cases bare : config.entry.isEmpty <;> simp [readChunk, chunkOf, kind, bare]

-- The induction carries that a shared chunk which is passed on is the one on the disk.
theorem stitchFrom_onDisk (shared : Option String) (files : List Classified)
    (known : ∀ chunk ∈ shared, ((readShared config).onDisk disk).1 = .ok chunk) :
    (stitcher.stitchFrom config shared files).onDisk disk =
      (files.mapM (stitcher.stitchFile config disk), disk) := by
  induction files generalizing shared with
  | nil => rfl
  | cons file rest ih =>
      have reading {work : FileWork String} {result : Except Fault String}
          (ends : work.onDisk disk = (result, disk)) (next : String → Option String)
          (known : ∀ text, result = .ok text → ∀ chunk ∈ next text,
            ((readShared config).onDisk disk).1 = .ok chunk) (make : String → Artifact) :
          FileWork.onDisk (do
            let text ← work
            let others ← stitcher.stitchFrom config (next text) rest
            pure (make text :: others)) disk =
          (do
            let artifact ← result.map make
            let others ← rest.mapM (stitcher.stitchFile config disk)
            pure (artifact :: others), disk) := by
        rw [FileWork.onDisk_bind, ends]
        cases result with
        | error fault => rfl
        | ok text =>
            dsimp only
            rw [FileWork.onDisk_bind, ih (next text) (known text rfl)]
            cases rest.mapM (stitcher.stitchFile config disk) <;> rfl
      have untouched (text : String) : FileWork.onDisk (pure text) disk = (.ok text, disk) := rfl
      rw [List.mapM_cons, stitchFile, stitchFrom]
      split
      · rename_i kind
        have placed : stitcher.dataOf file = stitcher.sharedText := by
          funext chunk
          simp [dataOf, kind]
        rw [readChunk_shared kind, placed]
        cases shared with
        | some chunk =>
            rw [known chunk rfl]
            refine reading (untouched chunk) some ?_ _
            rintro _ ⟨⟩ _ ⟨⟩
            exact known chunk rfl
        | none =>
            rw [readShared_onDisk] at reading ⊢
            refine reading (readShared_onDisk config disk) some ?_ _
            rintro text ends _ ⟨⟩
            exact ends
      · rename_i kind
        have placed : stitcher.dataOf file = stitcher.entryText := by
          funext chunk
          simp [dataOf, kind]
        rw [readChunk_entry kind, placed]
        exact reading Files.readText_onDisk (fun _ => shared) (fun _ _ => known) _
      all_goals
        rename_i kind
        simp only [readChunk, chunkOf, dataOf, kind]
        exact reading (untouched "") (fun _ => shared) (fun _ _ => known)
          (fun _ => artifactOf file "")

theorem stitch_onDisk (files : List Classified) : (stitcher.stitch config files).onDisk disk =
    (files.mapM (stitcher.stitchFile config disk), disk) :=
  stitchFrom_onDisk none files (fun _ unread => by cases unread)

section Artifacts

variable {file : Classified} {artifact : Artifact} {files : List Classified}
  {artifacts : List Artifact} {left : Disk}

def Stitched (stitcher : Stitcher) (config : BundleConfig) (disk : Disk) (file : Classified)
    (artifact : Artifact) : Prop :=
  match file.kind with
  | .sharedPlaceholder => ∃ chunk, (readShared config).onDisk disk = (.ok chunk, disk) ∧
      artifact = artifactOf file (stitcher.sharedText chunk)
  | .entry => ∃ chunk, disk.readText (config.entryChunkPath file.stagedPath) = .ok chunk ∧
      artifact = artifactOf file (stitcher.entryText chunk)
  | .script | .unsupported => artifact = artifactOf file ""

theorem stitched_of_stitchFile (made : stitcher.stitchFile config disk file = .ok artifact) :
    Stitched stitcher config disk file artifact := by
  obtain ⟨chunk, read, rfl⟩ := stitchFile_eq_ok_iff.mp made
  unfold Stitched
  split
  · rename_i kind
    have left : ((readShared config).onDisk disk).2 = disk := by rw [readShared_onDisk]
    rw [readChunk_shared kind] at read
    refine ⟨chunk, Prod.ext read left, ?_⟩
    simp only [dataOf, kind]
  · rename_i kind
    rw [readChunk_entry kind, onPath_eq_ok_iff] at read
    refine ⟨chunk, read, ?_⟩
    simp only [dataOf, kind]
  all_goals
    rename_i kind
    simp only [dataOf, kind]

theorem stitch_ok
    (stitched : (stitcher.stitch config files).onDisk disk = (.ok artifacts, left)) :
    List.Forall₂ (Stitched stitcher config disk) files artifacts ∧ left = disk := by
  rw [stitch_onDisk, Prod.mk.injEq, mapM_eq_ok_iff] at stitched
  exact ⟨stitched.1.imp (fun _ _ => stitched_of_stitchFile), stitched.2.symm⟩

end Artifacts

/-- The code that merges the published namespace of a package into the scope of an entry, line by
line; `extend` is the name of the function that does it. -/
def mergeLines (extend sharedNamespace ownPackage : String) : List String :=
  ["function " ++ extend ++ "(target, source) \x7b\n",
    "    target = target || \x7b\x7d;\n",
    "    for (var prop in source) \x7b\n",
    "        if (typeof source[prop] === 'object' && source[prop] !== null) \x7b\n",
    "            target[prop] = " ++ extend ++ "(target[prop], source[prop]);\n",
    "        \x7d else \x7b\n",
    "            target[prop] = source[prop];\n",
    "        \x7d\n",
    "    \x7d\n",
    "    return target;\n",
    "\x7d\n",
    extend ++ "(this, Package['" ++ ownPackage ++ "']." ++ sharedNamespace ++ ");\n"]

/-- What stands before the chunk of an entry where a platform does not link the namespace. -/
def preludeOf (settings : Settings) : String :=
  String.join (mergeLines (settings.sharedNamespace ++ "Extend") settings.sharedNamespace
    settings.ownPackage.display)

-- The prelude is decided by the settings; the capabilities decide who gets it.
theorem mergePrelude_ofSettings (settings : Settings) (capabilities : Capabilities) :
    (ofSettings settings capabilities).mergePrelude = preludeOf settings := by
  delta mergePrelude preludeOf mergeLines
  simp only [ofSettings, String.join_cons, String.join_nil, String.append_empty,
    String.append_assoc]

def Holds (settings : Settings) (capabilities : Capabilities) (config : BundleConfig) (disk : Disk)
    (file : Classified) (data : String) : Prop :=
  match file.kind with
  | .entry => ∃ chunk, disk.readText (config.outputPath / file.stagedPath) = .ok chunk ∧
      data = if capabilities.linksSharedNamespace then chunk else preludeOf settings ++ chunk
  | .sharedPlaceholder => ∃ chunk,
      (if config.entry.isEmpty then chunk = ""
        else disk.readText (config.outputPath / config.sharedChunk) = .ok chunk) ∧
      data = if capabilities.ambientGlobal then chunk
        else settings.sharedNamespace ++ " = \x7b\x7d;\n" ++ String.ofList (Text.replaceWord
          settings.browserGlobal.toList settings.sharedNamespace.toList chunk.toList)
  | .script | .unsupported => data = ""

theorem holds_of_stitchFile {settings : Settings} {capabilities : Capabilities} {file : Classified}
    {artifact : Artifact}
    (stitched : (ofSettings settings capabilities).stitchFile config disk file = .ok artifact) :
    artifact.path = file.fileName ∧ artifact.sourcePath = file.sourcePath ∧
      artifact.sourceMap = none ∧
      Holds settings capabilities config disk file artifact.data := by
  obtain ⟨chunk, read, rfl⟩ := stitchFile_eq_ok_iff.mp stitched
  refine ⟨rfl, rfl, rfl, ?_⟩
  have data : (artifactOf file ((ofSettings settings capabilities).dataOf file chunk)).data =
      (ofSettings settings capabilities).dataOf file chunk := rfl
  unfold Holds
  rw [data, dataOf]
  split
  · rename_i kind
    rw [readChunk_entry kind, onPath_eq_ok_iff] at read
    refine ⟨chunk, read, ?_⟩
    rw [entryText, mergePrelude_ofSettings]
    rfl
  · rename_i kind
    rw [readChunk_shared kind, readShared_onDisk] at read
    refine ⟨chunk, ?_, rfl⟩
    split
    · rename_i bare
      rw [if_pos bare] at read
      exact (Except.ok.inj read).symm
    · rename_i entries
      rw [if_neg entries] at read
      exact onPath_eq_ok_iff.mp read
  · rfl
  · rfl

end Stitcher

/-- Stitching a batch comes to an artifact for each file, or to the fault of the first chunk that
cannot be read. -/
theorem stitching_outcome (settings : Settings) (capabilities : Capabilities)
    (config : BundleConfig) (files : List Classified) (disk : Disk) :
    let stitched := ((Stitcher.ofSettings settings capabilities).stitch config files).onDisk disk
    let readable (file : Classified) := ∀ path, Stitcher.chunkOf config file = some path →
      ∃ text, disk.readText path = .ok text
    ((∃ artifacts, stitched = (.ok artifacts, disk)) ↔ ∀ file ∈ files, readable file) ∧
    (∀ before file after path cause, files = before ++ file :: after →
      (∀ earlier ∈ before, readable earlier) → Stitcher.chunkOf config file = some path →
      disk.readText path = .error cause →
        stitched = (.error (.onPath "reading file" path cause), disk)) ∧
    ∀ artifacts left, stitched = (.ok artifacts, left) →
      List.Forall₂ (fun file artifact => artifact.path = file.fileName ∧
        artifact.sourcePath = file.sourcePath ∧ artifact.sourceMap = none ∧
        Stitcher.Holds settings capabilities config disk file artifact.data)
        files artifacts := by
  intro stitched readable
  have whole : stitched =
      (files.mapM ((Stitcher.ofSettings settings capabilities).stitchFile config disk), disk) :=
    Stitcher.stitch_onDisk files
  have stitchable (file : Classified) : readable file ↔
      ∃ artifact, (Stitcher.ofSettings settings capabilities).stitchFile config disk file =
        .ok artifact := by
    simp only [Stitcher.stitchFile_eq_ok_iff, ← Stitcher.readChunk_eq_ok_iff, readable]
    constructor
    · rintro ⟨chunk, read⟩
      exact ⟨_, chunk, read, rfl⟩
    · rintro ⟨_, chunk, read, -⟩
      exact ⟨chunk, read⟩
  refine ⟨?_, ?_, ?_⟩
  · simp only [whole, Prod.mk.injEq, and_true, mapM_done_iff, stitchable]
  · rintro before file after path cause rfl earlier needed failed
    have stops : (Stitcher.ofSettings settings capabilities).stitchFile config disk file =
        .error (.onPath "reading file" path cause) := by
      rw [Stitcher.stitchFile, Stitcher.readChunk_eq_error needed failed]
      rfl
    rw [whole,
      mapM_eq_error (fun other listed => (stitchable other).mp (earlier other listed)) stops]
  · intro artifacts left ends
    rw [whole, Prod.mk.injEq, mapM_eq_ok_iff] at ends
    refine ends.1.imp (fun file artifact made => ?_)
    exact Stitcher.holds_of_stitchFile made

end PlatformBundle
