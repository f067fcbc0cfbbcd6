import PlatformBundle.Proofs.EntryArtifacts
import PlatformBundle.Proofs.KeyMaps
import PlatformBundle.Proofs.StitchedFiles
import PlatformBundle.Proofs.Walks
/-!
What the check of the outputs is good for. It asks only whether something stands at each chunk's
path, so a batch that passes it can still fail at stitching: a directory passes, and so does a file
that is not text. Nothing else gets through, and a chunk that passes is never missing later.
-/

namespace PlatformBundle

namespace Disk

variable {tree : FileTree} {budget : Nat} {directory place : RealPath} {steps : List String}
  {node : Node} {disk : Disk} {path : Path}

theorem Walks.node_ne_link (walks : Walks tree true budget directory steps (.present place node))
    (target : String) : node ≠ .link target := by
  generalize ends : Place.present place node = found at walks
  induction walks with
  | done =>
      cases ends
      rintro ⟨⟩
  | here onward ih => exact ih ends
  | up onward ih => exact ih ends
  | vacant => cases ends
  | file =>
      cases ends
      rintro ⟨⟩
  | link entry found stops => cases stops
  | enter entry found onward ih => exact ih ends
  | jump entry found goes onward ih => exact ih ends

theorem stat_ne_link (stands : disk.stat path = .ok (place, node)) (target : String) :
    node ≠ .link target := by
  have located := stat_ok_iff.mp stands
  unfold locate at located
  obtain ⟨_, -, walks⟩ := bind_eq_ok_iff.mp located
  exact ((walk_ok_iff ..).mp walks).node_ne_link target

/-- A file whose content is text; links are followed. -/
def HoldsText (disk : Disk) (path : Path) : Prop :=
  ∃ place content executable text, disk.stat path = .ok (place, .file content executable) ∧
    String.fromUTF8? content = some text

theorem exists_iff :
    disk.exists? path = true ↔ ∃ place node, disk.stat path = .ok (place, node) := by
  unfold exists?
  rcases disk.stat path with _ | ⟨place, node⟩ <;> simp

theorem readText_directory (stands : disk.stat path = .ok (place, .directory)) :
    disk.readText path = .error .isDirectory := by
  rw [readText, read, stands]
  rfl

theorem readText_file {content : ByteArray} {executable : Bool}
    (stands : disk.stat path = .ok (place, .file content executable)) :
    disk.readText path = ((String.fromUTF8? content).elim (.error .notText) .ok) := by
  rw [readText, read, stands]
  simp only [bind, Except.bind]
  cases String.fromUTF8? content <;> rfl

theorem readText_done_iff : (∃ text, disk.readText path = .ok text) ↔ disk.HoldsText path := by
  constructor
  · rintro ⟨text, read⟩
    rcases stands : disk.stat path with cause | ⟨place, node⟩
    · rw [readText, Disk.read, stands] at read
      cases read
    cases node with
    | directory =>
        rw [readText_directory stands] at read
        cases read
    | link target => exact absurd rfl (stat_ne_link stands target)
    | file content executable =>
        rw [readText_file stands] at read
        cases decoded : String.fromUTF8? content with
        | none =>
            rw [decoded] at read
            cases read
        | some text => exact ⟨place, content, executable, text, stands, decoded⟩
  · rintro ⟨place, content, executable, text, stands, decoded⟩
    exact ⟨text, by rw [readText_file stands, decoded]; rfl⟩

/-- What stands somewhere and cannot be read as text is a directory, or a file of other bytes. -/
theorem readText_of_there (there : disk.exists? path = true) (other : ¬ disk.HoldsText path) :
    disk.isDirectory path = true ∧ disk.readText path = .error .isDirectory ∨
      disk.isFile path = true ∧ disk.readText path = .error .notText := by
  obtain ⟨place, node, stands⟩ := exists_iff.mp there
  cases node with
  | directory => exact Or.inl ⟨by rw [isDirectory, stands], readText_directory stands⟩
  | link target => exact absurd rfl (stat_ne_link stands target)
  | file content executable =>
      refine Or.inr ⟨by rw [isFile, stands], ?_⟩
      have undecoded : String.fromUTF8? content = none := by
        refine Option.eq_none_iff_forall_ne_some.mpr (fun text decoded => ?_)
        exact other ⟨place, content, executable, text, stands, decoded⟩
      rw [readText_file stands, undecoded]
      rfl

end Disk

theorem BundleConfig.verifyOutputs_ok_iff {config : BundleConfig} {disk : Disk} :
    config.verifyOutputs.onDisk disk = (.ok (), disk) ↔
      ∀ chunk ∈ config.expectedChunks, disk.exists? chunk = true := by
  rw [verifyOutputs_onDisk, ← absentChunks_eq_nil_iff, Prod.mk.injEq]
  split
  · rename_i complete
    simp [complete]
  · rename_i missing
    simp [missing]

namespace Stitcher

variable {stitcher : Stitcher} {config : BundleConfig} {disk : Disk} {file : Classified}

theorem chunkOf_expected {path : Path}
    (registered : file.kind = .entry → config.entry.contains file.stagedPath = true)
    (needed : chunkOf config file = some path) : path ∈ config.expectedChunks := by
  unfold chunkOf at needed
  split at needed
  · rename_i kind
    cases needed
    exact List.mem_cons_of_mem _
      (List.mem_map.mpr ⟨_, KeyMap.mem_keys_iff.mpr (registered kind), rfl⟩)
  · split at needed
    · cases needed
    · cases needed
      exact List.mem_cons_self
  · cases needed
  · cases needed

def ChunkIsText (config : BundleConfig) (disk : Disk) (file : Classified) : Prop :=
  ∀ path, chunkOf config file = some path → disk.HoldsText path

theorem stitchFile_done_iff : (∃ artifact, stitcher.stitchFile config disk file = .ok artifact) ↔
    ChunkIsText config disk file := by
  simp only [stitchFile_eq_ok_iff, ChunkIsText, ← Disk.readText_done_iff, ← readChunk_eq_ok_iff]
  constructor
  · rintro ⟨_, chunk, read, -⟩
    exact ⟨chunk, read⟩
  · rintro ⟨chunk, read⟩
    exact ⟨_, chunk, read, rfl⟩

/-- Once every expected chunk is there, a batch is stitched exactly when the chunks that it needs
are texts. The first that is not ends the batch: it is a directory, or a file of other bytes. -/
theorem verified_outputs_stitched {files : List Classified}
    (verified : config.verifyOutputs.onDisk disk = (.ok (), disk))
    (registered : ∀ file ∈ files, file.kind = .entry →
      config.entry.contains file.stagedPath = true) :
    let stitched := (stitcher.stitch config files).onDisk disk
    ((∃ artifacts, stitched = (.ok artifacts, disk)) ↔
      ∀ file ∈ files, ChunkIsText config disk file) ∧
    ∀ before file after path, files = before ++ file :: after →
      (∀ earlier ∈ before, ChunkIsText config disk earlier) →
      chunkOf config file = some path → ¬ disk.HoldsText path →
        disk.isDirectory path = true ∧
            stitched = (.error (.onPath "reading file" path .isDirectory), disk) ∨
          disk.isFile path = true ∧
            stitched = (.error (.onPath "reading file" path .notText), disk) := by
  intro stitched
  have whole : stitched = (files.mapM (stitcher.stitchFile config disk), disk) :=
    stitch_onDisk files
  have there := BundleConfig.verifyOutputs_ok_iff.mp verified
  refine ⟨?_, ?_⟩
  · simp only [whole, Prod.mk.injEq, and_true, mapM_done_iff, stitchFile_done_iff]
  · rintro before file after path rfl earlier needed other
    have expected := chunkOf_expected (registered file (by simp)) needed
    have stops {cause : IoCause} (failed : disk.readText path = .error cause) :
        stitched = (.error (.onPath "reading file" path cause), disk) := by
      have fault : stitcher.stitchFile config disk file =
          .error (.onPath "reading file" path cause) := by
        rw [stitchFile, readChunk_eq_error needed failed]
        rfl
      have done : ∀ one ∈ before, ∃ artifact, stitcher.stitchFile config disk one = .ok artifact :=
        fun one listed => stitchFile_done_iff.mpr (earlier one listed)
      rw [whole, mapM_eq_error done fault]
    rcases Disk.readText_of_there (there path expected) other with
      ⟨stands, failed⟩ | ⟨stands, failed⟩
    · exact Or.inl ⟨stands, stops failed⟩
    · exact Or.inr ⟨stands, stops failed⟩

section Outputs

open Batch

def widgetConfig : BundleConfig :=
  (BundleConfig.start ⟨"/b"⟩ "shared-modules.js" none).addEntry "acme_widgets/module.js"

def outputDisk (chunk : Node) : Disk where
  tree := ((((emptyTree.put ["b"] .directory).put ["b", "built"] .directory).put
    ["b", "built", "shared-modules.js"] (.file "s".toUTF8 false)).put
    ["b", "built", "acme_widgets"] .directory).put ["b", "built", "acme_widgets", "module.js"] chunk
  workdir := []

def plainStitcher : Stitcher := .ofSettings plainSettings .client

def outputNodes : List Node := [.directory, .file ⟨#[0xFF]⟩ false, .file "w()".toUTF8 false]

def widgetChunk : Path :=
  widgetConfig.entryChunkPath (classify plainSettings widgetModule).stagedPath

theorem widget_registered : ∀ file ∈ [classify plainSettings widgetModule], file.kind = .entry →
    widgetConfig.entry.contains file.stagedPath = true := by
  decide

theorem chunkOf_widget :
    chunkOf widgetConfig (classify plainSettings widgetModule) = some widgetChunk := by
  decide

theorem outputs_verified : ∀ chunk ∈ outputNodes,
    widgetConfig.verifyOutputs.onDisk (outputDisk chunk) = (.ok (), outputDisk chunk) := by
  intro chunk listed
  have there : ∀ chunk ∈ outputNodes, ∀ path ∈ widgetConfig.expectedChunks,
      (outputDisk chunk).exists? path = true := by
    decide
  exact BundleConfig.verifyOutputs_ok_iff.mpr (there chunk listed)

/-- The batch of one entry over an output with its chunk, and over one with a directory there. -/
theorem widget_chunk_stitched :
    (∃ artifacts, (plainStitcher.stitch widgetConfig [classify plainSettings widgetModule]).onDisk
      (outputDisk (.file "w()".toUTF8 false)) =
        (.ok artifacts, outputDisk (.file "w()".toUTF8 false))) ∧
    (plainStitcher.stitch widgetConfig [classify plainSettings widgetModule]).onDisk
      (outputDisk .directory) =
        (.error (.onPath "reading file" widgetChunk .isDirectory), outputDisk .directory) := by
  constructor
  · refine (verified_outputs_stitched (outputs_verified _ (by simp [outputNodes]))
      widget_registered).1.mpr (fun file listed path needed => ?_)
    rw [List.mem_singleton.mp listed, chunkOf_widget] at needed
    cases needed
    have read : ((outputDisk (.file "w()".toUTF8 false)).readText widgetChunk).isOk = true := by
      decide
    rw [← Disk.readText_done_iff]
    cases ends : (outputDisk (.file "w()".toUTF8 false)).readText widgetChunk with
    | error cause =>
        rw [ends] at read
        cases read
    | ok text => exact ⟨text, rfl⟩
  · have directory : (outputDisk .directory).isDirectory widgetChunk = true := by decide
    have noFile : (outputDisk .directory).isFile widgetChunk = false := by decide
    have noText : ¬ (outputDisk .directory).HoldsText widgetChunk := by
      rintro ⟨place, content, executable, text, stands, -⟩
      rw [Disk.isFile, stands] at noFile
      cases noFile
    rcases (verified_outputs_stitched (outputs_verified .directory (by simp [outputNodes]))
      widget_registered).2 [] _ [] _ rfl (by simp) chunkOf_widget noText with stops | stops
    · exact stops.2
    · rw [noFile] at stops
      cases stops.1

/-- A directory in place of a chunk passes the check, and so does a file that is no text. -/
theorem unreadable_chunks_pass : widgetConfig.entry.isEmpty = false ∧
    (∀ file ∈ [classify plainSettings widgetModule], file.kind = .entry →
      widgetConfig.entry.contains file.stagedPath = true) ∧
    ∀ chunk ∈ [Node.directory, .file ⟨#[0xFF]⟩ false],
      widgetConfig.verifyOutputs.onDisk (outputDisk chunk) = (.ok (), outputDisk chunk) ∧
      ¬ ∃ artifacts left,
        (plainStitcher.stitch widgetConfig [classify plainSettings widgetModule]).onDisk
          (outputDisk chunk) = (.ok artifacts, left) := by
  refine ⟨by decide, widget_registered, fun chunk listed => ⟨?_, ?_⟩⟩
  · refine outputs_verified chunk ?_
    rcases List.mem_pair.mp listed with rfl | rfl <;> simp [outputNodes]
  · rintro ⟨artifacts, left, stitched⟩
    have unread : ∀ chunk ∈ [Node.directory, .file ⟨#[0xFF]⟩ false],
        ((outputDisk chunk).readText widgetChunk).isOk = false := by
      decide
    rw [stitch_onDisk, Prod.mk.injEq] at stitched
    have done := mapM_done_iff.mp ⟨artifacts, stitched.1⟩ _ List.mem_cons_self
    obtain ⟨text, read⟩ := Disk.readText_done_iff.mpr
      (stitchFile_done_iff.mp done _ chunkOf_widget)
    have failed := unread chunk listed
    rw [read] at failed
    cases failed

end Outputs

end Stitcher

end PlatformBundle
