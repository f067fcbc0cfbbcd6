import PlatformBundle.Proofs.BundleSteps
import PlatformBundle.Proofs.StagedSources
import PlatformBundle.Proofs.ToolContracts
/-!
What a bundling tool leaves in the output directory. Whatever it does and in whichever order, each
chunk that it has written holds the compiled source of its own entry: no chunk is written at the
place of a source, of another chunk or of the shared chunk.
-/

namespace PlatformBundle

open FileTree Disk Staging

section Source

variable {disk : Disk} {names : List String} {file : Classified}

theorem entrySource_eq (segments : ∀ name ∈ names, IsSegment name) (ordinary : file.IsOrdinary) :
    Path.ofReal names / BundleConfig.entrySource file.stagedPath =
      Path.ofReal (names ++ "." :: packagesDir :: namesOf file.stagedPath) := by
  have inside : ∀ name ∈ "." :: packagesDir :: namesOf file.stagedPath, IsSegment name := by
    intro name listed
    rcases List.mem_cons.mp listed with rfl | below
    · decide
    · rcases List.mem_cons.mp below with rfl | own
      · exact isProper_packagesDir.toIsSegment
      · exact (ordinary.proper name own).toIsSegment
  have joined := Path.ofReal_div (List.cons_ne_nil _ _) segments inside
  rwa [← namesOf_entrySource, joinWith_namesOf, namesOf_entrySource] at joined

theorem entrySource_text {text other : String} (proper : ∀ name ∈ names, IsProper name)
    (ordinary : file.IsOrdinary) (here : disk.readText (sourcePath names file) = .ok text)
    (there : disk.readText (Path.ofReal names / BundleConfig.entrySource file.stagedPath) =
      .ok other) : other = text := by
  have segments := segments_of_proper proper
  have below := segments_of_proper (proper_below proper isProper_packagesDir ordinary.proper)
  have belowHere : ∀ name ∈ names ++ "." :: packagesDir :: namesOf file.stagedPath,
      IsSegment name := by
    intro name listed
    rcases List.mem_append.mp listed with above | step
    · exact segments name above
    · rcases List.mem_cons.mp step with rfl | inside
      · decide
      · exact below name (List.mem_append_right _ inside)
  rw [sourcePath_eq segments ordinary, Disk.readText_ok_iff below] at here
  rw [entrySource_eq segments ordinary, Disk.readText_ok_iff belowHere] at there
  obtain ⟨-, spot, content, executable, walks, decoded⟩ := here
  obtain ⟨-, otherSpot, otherContent, otherExecutable, others, otherDecoded⟩ := there
  obtain ⟨top, leads⟩ := Walks.front walks rfl (List.cons_ne_nil packagesDir _)
  have same := walk_of_walks others
  rw [LeadsTo.step_here leads (List.cons_ne_nil packagesDir _), walk_of_walks walks] at same
  cases same
  exact Option.some.inj (otherDecoded.symm.trans decoded)

end Source

/-- The source of every entry is in its place, and the output directory has no link in it. -/
structure Supplied (names : List String) (place : RealPath) (files : List Classified)
    (disk : Disk) : Prop where
  grounded : disk.tree.Grounded
  sources : ∀ file ∈ files, file.kind = .entry → ∃ content executable,
    disk.stat (sourcePath names file) =
      .ok (sourceSpot place file, .file content executable) ∧
    String.fromUTF8? content = some file.source
  output : disk.stat (Path.ofReal names / builtDir) = .ok (place ++ [builtDir], .directory)
  clear : disk.tree.Linkless (place ++ [builtDir])

namespace Supplied

variable {names : List String} {place : RealPath} {files : List Classified} {disk left : Disk}
  {spared : RealPath → Prop} {below text : String}

theorem readText (supplied : Supplied names place files disk) {file : Classified}
    (member : file ∈ files) (entry : file.kind = .entry) :
    disk.readText (sourcePath names file) = .ok file.source := by
  obtain ⟨content, executable, found, decoded⟩ := supplied.sources file member entry
  exact readText_iff_stat.mpr ⟨_, content, executable, found, decoded⟩

theorem of_undisturbed (supplied : Supplied names place files disk)
    (undisturbed : disk.Undisturbed (Path.ofReal names) left) :
    Supplied names place files left where
  grounded := undisturbed.grounded supplied.grounded
  sources := by
    intro file member entry
    obtain ⟨content, executable, found, decoded⟩ := supplied.sources file member entry
    exact ⟨content, executable, undisturbed.sources _ _ _ _ found, decoded⟩
  output := (undisturbed.output _ supplied.output supplied.clear).1
  clear := (undisturbed.output _ supplied.output supplied.clear).2

theorem grow (supplied : Supplied names place files disk)
    (grown : Grown spared disk.tree left.tree)
    (safe : ∀ file ∈ files, file.kind = .entry → spared (sourceSpot place file)) :
    Supplied names place files left where
  grounded := grown.grounded
  sources := by
    intro file member entry
    obtain ⟨content, executable, found, decoded⟩ := supplied.sources file member entry
    have absolute := Path.isAbsolute_div (Path.isAbsolute_div (Path.isAbsolute_ofReal names)
      packagesDir) file.stagedPath
    exact ⟨content, executable, stat_grow absolute grown.toGrows
      (Or.inl (safe file member entry)) found, decoded⟩
  output := stat_grow (Path.isAbsolute_div (Path.isAbsolute_ofReal names) builtDir)
    grown.toGrows (Or.inr rfl) supplied.output
  clear := grown.linkless supplied.clear

theorem of_ready (proper : ∀ name ∈ names, IsProper name)
    (ordinary : ∀ file ∈ files, file.IsOrdinary) (ready : Ready disk.tree names place)
    (checked : checkText (Path.ofReal (names ++ [builtDir])).text = .ok ())
    (leads : LeadsTo disk.tree (names ++ [builtDir]) (place ++ [builtDir]))
    (clear : disk.tree.Linkless (place ++ [builtDir]))
    (reads : ∀ file ∈ files, file.kind = .entry →
      disk.readText (sourcePath names file) = .ok file.source) :
    Supplied names place files disk where
  grounded := ready.grounded
  sources := by
    intro file member entry
    obtain ⟨spot, content, executable, found, decoded⟩ :=
      readText_iff_stat.mp (reads file member entry)
    have properAll := proper_below proper isProper_packagesDir (ordinary file member).proper
    have path := sourcePath_eq (segments_of_proper proper) (ordinary file member)
    have walks := ((stat_ofReal_iff (segments_of_proper properAll)).mp (path ▸ found)).2
    have here : spot = sourceSpot place file := ready.leads.spot_of_linkless walks
      (fun name listed => properAll name (List.mem_append_right _ listed)) ready.sources
    exact ⟨content, executable, here ▸ found, decoded⟩
  output := by
    have segments := segments_of_proper proper
    rw [Path.ofReal_div_name segments isProper_builtDir.toIsSegment]
    exact (stat_ofReal_iff (segments_append_one segments isProper_builtDir.toIsSegment)).mpr
      ⟨checked, leads⟩
  clear := clear

section Output

variable (proper : ∀ name ∈ names, IsProper name)
  (properBelow : ∀ name ∈ namesOf below, IsProper name)
include proper

theorem leads (supplied : Supplied names place files disk) :
    LeadsTo disk.tree (names ++ [builtDir]) (place ++ [builtDir]) := by
  have segments := segments_of_proper proper
  have output := supplied.output
  rw [Path.ofReal_div_name segments isProper_builtDir.toIsSegment, stat_ofReal_iff
    (segments_append_one segments isProper_builtDir.toIsSegment)] at output
  exact output.2

include properBelow

-- The lemmas on places without links are used from the output directory on.
theorem write_output (supplied : Supplied names place files disk)
    (wrote : (Files.write (Path.ofReal names / builtDir / below) text).onDisk disk =
      (.ok (), left)) :
    Grown (fun other => other ≠ place ++ builtDir :: namesOf below) disk.tree left.tree ∧
      left.readText (Path.ofReal names / builtDir / below) = .ok text := by
  have properAll := proper_below proper isProper_builtDir properBelow
  have long : 2 ≤ (names ++ builtDir :: namesOf below).length :=
    two_le_length_below (namesOf_ne_nil below)
  rw [ofReal_div_below (segments_of_proper proper) isProper_builtDir properBelow] at wrote ⊢
  obtain ⟨top, more, spelled⟩ := List.exists_cons_of_ne_nil (namesOf_ne_nil below)
  rw [spelled, List.append_cons names] at properAll long wrote ⊢
  rw [List.append_cons place]
  exact write_linkless properAll (supplied.leads proper) (supplied.clear.below [top]) long
    supplied.grounded wrote

theorem readText_output (supplied : Supplied names place files disk)
    (grows : Grows spared disk.tree left.tree)
    (safe : spared (place ++ builtDir :: namesOf below))
    (read : disk.readText (Path.ofReal names / builtDir / below) = .ok text) :
    left.readText (Path.ofReal names / builtDir / below) = .ok text := by
  have properAll := proper_below proper isProper_builtDir properBelow
  rw [ofReal_div_below (segments_of_proper proper) isProper_builtDir properBelow] at read ⊢
  obtain ⟨top, more, spelled⟩ := List.exists_cons_of_ne_nil (namesOf_ne_nil below)
  rw [spelled, List.append_cons names] at properAll read ⊢
  rw [spelled, List.append_cons place] at safe
  exact readText_linkless properAll (supplied.leads proper) (supplied.clear.below [top]) grows
    safe read

end Output

end Supplied

section Emitting

variable {names : List String} {place : RealPath} {files : List Classified}
  {compile : String → String} {config : BundleConfig} {start now : Disk} {past : List Disk}
  {done : List String}

structure Describes (names : List String) (files : List Classified) (config : BundleConfig) :
    Prop where
  entries : ∀ key source, config.entry.get? key = some source →
    source = BundleConfig.entrySource key ∧
      ∃ file ∈ files, file.kind = .entry ∧ file.stagedPath = key
  output : config.outputPath = Path.ofReal names / builtDir
  shared : config.sharedChunk = "shared-modules.js"

theorem Describes.of_sameChunks {other : BundleConfig} (same : other.SameChunks config)
    (describes : Describes names files config) : Describes names files other where
  entries := same.1 ▸ describes.entries
  output := same.2.1.trans describes.output
  shared := same.2.2.trans describes.shared

/-- A chunk is staged two names deep or deeper, so it is never at the place of the shared one. -/
theorem names_ne_shared {file : Classified} (ordinary : file.IsOrdinary) :
    namesOf file.stagedPath ≠ namesOf "shared-modules.js" := by
  intro same
  rw [ordinary.staged] at same
  have alone : namesOf "shared-modules.js" = ["shared-modules.js"] := by decide
  rw [alone] at same
  exact namesOf_ne_nil file.fileName (List.cons.inj same).2

theorem sourceSpot_ne_output (file : Classified) (below : List String) :
    sourceSpot place file ≠ place ++ builtDir :: below := by
  intro same
  have differ : packagesDir ≠ builtDir := by decide
  exact differ (List.cons.inj (List.append_cancel_left same)).1

theorem Supplied.after_write {below text : String} {left : Disk}
    (proper : ∀ name ∈ names, IsProper name) (ordinary : ∀ file ∈ files, file.IsOrdinary)
    (properBelow : ∀ name ∈ namesOf below, IsProper name)
    (supplied : Supplied names place files now)
    (wrote : (Files.write (Path.ofReal names / builtDir / below) text).onDisk now =
      (.ok (), left)) :
    Supplied names place files left ∧ ∀ file ∈ files, namesOf file.stagedPath ≠ namesOf below →
      ∀ chunk, now.readText (Path.ofReal names / builtDir / file.stagedPath) = .ok chunk →
        left.readText (Path.ofReal names / builtDir / file.stagedPath) = .ok chunk := by
  have grown := (supplied.write_output proper properBelow wrote).1
  refine ⟨supplied.grow grown (fun file _ _ => sourceSpot_ne_output file _), ?_⟩
  intro file member differ chunk read
  refine supplied.readText_output proper (ordinary file member).proper grown.toGrows ?_ read
  intro same
  exact differ (List.cons.inj (List.append_cancel_left same)).2

/-- Every chunk written so far holds the compiled source of its own entry, and the sources are in
their places all the time. -/
theorem Emitting.holds (proper : ∀ name ∈ names, IsProper name)
    (ordinary : ∀ file ∈ files, file.IsOrdinary)
    (distinct : (files.map Classified.stagedPath).Nodup)
    (describes : Describes names files config) (supplied : Supplied names place files start)
    (emitting : Emitting compile config (Path.ofReal names) start past now done) :
    (∀ seen ∈ now :: past, Supplied names place files seen) ∧
      ∀ file ∈ files, file.kind = .entry → file.stagedPath ∈ done →
        now.readText (config.outputPath / file.stagedPath) = .ok (compile file.source) := by
  obtain ⟨entries, output, sharedChunk⟩ := describes
  induction emitting with
  | opening => exact ⟨by simpa using supplied, by simp⟩
  | chunk before listed looked read wrote ih =>
      obtain ⟨supplies, holds⟩ := ih
      obtain ⟨rfl, file, member, entry, rfl⟩ := entries _ _ listed
      obtain rfl := entrySource_text proper (ordinary file member)
        ((supplies _ looked).readText member entry) read
      rw [output] at wrote holds ⊢
      have own := (ordinary file member).proper
      have here := supplies _ List.mem_cons_self
      obtain ⟨after, kept⟩ := here.after_write proper ordinary own wrote
      refine ⟨List.forall_mem_cons.mpr ⟨after, supplies⟩, ?_⟩
      intro other there otherEntry written
      by_cases same : other.stagedPath = file.stagedPath
      · obtain rfl := List.inj_on_of_nodup_map distinct there member same
        exact (here.write_output proper own wrote).2
      · exact kept other there (fun names => same (namesOf_injective names)) _
          (holds other there otherEntry ((List.mem_cons.mp written).resolve_left same))
  | shared before wrote ih =>
      obtain ⟨supplies, holds⟩ := ih
      rw [output] at holds ⊢
      rw [output, sharedChunk] at wrote
      obtain ⟨after, kept⟩ := (supplies _ List.mem_cons_self).after_write proper ordinary
        (by decide) wrote
      refine ⟨List.forall_mem_cons.mpr ⟨after, supplies⟩, ?_⟩
      intro file member entry written
      exact kept file member (names_ne_shared (ordinary file member)) _
        (holds file member entry written)
  | aside before undisturbed chunks ih =>
      obtain ⟨supplies, holds⟩ := ih
      have after := (supplies _ List.mem_cons_self).of_undisturbed undisturbed
      refine ⟨List.forall_mem_cons.mpr ⟨after, supplies⟩, ?_⟩
      intro file member entry written
      exact chunks _ written _ (holds file member entry written)

end Emitting

end PlatformBundle
