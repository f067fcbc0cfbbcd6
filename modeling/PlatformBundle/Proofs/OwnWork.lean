import PlatformBundle.Proofs.ClosureCheck
import PlatformBundle.Proofs.SideBySide
import PlatformBundle.Proofs.StagedManifests
import PlatformBundle.Proofs.StagedSources
import PlatformBundle.Proofs.TaskTerms
/-!
Where a batch works. Every call that the task of a batch may come to make is one at or below the
staging root of its platform, whatever the calls before it are answered: what is staged, checked
and read has names that lead down from the root.
-/

namespace PlatformBundle

open FileTree Disk Staging

/-- A name that leads down from whatever directory it is joined on. -/
structure LeadsDown (name : String) : Prop where
  relative : Closure.IsRelative name
  down : ".." ∉ namesOf name

instance (name : String) : Decidable (LeadsDown name) :=
  decidable_of_iff (Closure.IsRelative name ∧ ".." ∉ namesOf name)
    ⟨fun ⟨relative, down⟩ => ⟨relative, down⟩, fun ⟨relative, down⟩ => ⟨relative, down⟩⟩

namespace Surroundings

variable {around : Surroundings} {platform : Platform} {names : List String}

section Paths

theorem own_div {name : String} (proper : ∀ name ∈ names, IsProper name)
    (segment : IsSegment name) :
    around.own platform names / name = around.own platform (names ++ [name]) := by
  have joined := Path.ofReal_div_name (segments_of_proper (proper_own around platform proper))
    segment
  simpa [own] using joined

theorem own_one {name : String} (proper : IsProper name) :
    around.own platform [] / name = around.own platform [name] :=
  own_div (by simp) proper.toIsSegment

theorem own_div_names {text : String} (proper : ∀ name ∈ names, IsProper name)
    (segments : ∀ name ∈ namesOf text, IsSegment name) :
    around.own platform names / text = around.own platform (names ++ namesOf text) := by
  have joined := Path.ofReal_div (namesOf_ne_nil text)
    (segments_of_proper (proper_own around platform proper)) segments
  rw [joinWith_namesOf] at joined
  simpa [own] using joined

theorem parent_own {last : String} (proper : ∀ name ∈ names ++ [last], IsProper name) :
    (around.own platform (names ++ [last])).parent = some (around.own platform names) := by
  have all := proper_own around platform proper
  have spelled : around.names ++ platform.dirName :: (names ++ [last]) =
      (around.names ++ platform.dirName :: names) ++ [last] := by simp
  rw [spelled] at all
  rw [own, spelled]
  exact Path.parent_ofReal all

theorem below_div {more : String} (proper : ∀ name ∈ names, IsProper name)
    (leads : LeadsDown more) :
    ∃ rest, around.Below platform (around.own platform names / more) rest := by
  have properOwn := proper_own around platform proper
  have segments := segments_of_proper properOwn
  have isOpen : Closure.IsOpen (around.own platform names) := by
    constructor
    · rw [← Bool.not_eq_true, String.isEmpty_iff, ← String.toList_inj, own, Path.toList_ofReal]
      simp
    · simpa [own] using Path.getLast?_ofReal (by simp) segments
  have spelled : (around.own platform names / more).text.toList =
      (around.own platform names).text.toList ++ '/' :: more.toList := by
    rw [Closure.div_text isOpen leads.relative]
    simp
  have kept : (Text.pieces '/' (around.own platform names).text.toList).filter
      (fun piece => !piece.isEmpty) =
        (around.names ++ platform.dirName :: names).map String.toList := by
    rw [own, Path.pieces_ofReal (by simp) segments, List.filter_cons_of_neg (by simp),
      List.filter_eq_self]
    intro part member
    obtain ⟨name, listed, rfl⟩ := List.mem_map.mp member
    simpa using (segments name listed).filled
  let others := (Text.pieces '/' more.toList).filter (fun piece => !piece.isEmpty)
  let dots := if (((around.own platform names / more).text.toList.getLast? == some '/') : Bool)
    then ["."] else []
  refine ⟨names ++ (others.map String.ofList ++ dots), ⟨fun directory => ?_, ?_, ?_⟩⟩
  · rw [startOf, spelled, own, Path.toList_ofReal]
    rfl
  · have whole : (Text.pieces '/' (around.own platform names / more).text.toList).filter
        (fun piece => !piece.isEmpty) =
          (around.names ++ platform.dirName :: names).map String.toList ++ others := by
      rw [spelled, Text.pieces_join, List.filter_append, kept]
    have filled : decide ((around.names ++ platform.dirName :: names).map String.toList ++ others ≠
        []) = true := by simp
    rw [stepsOf]
    rw [whole, filled, Bool.true_and, List.map_append, List.map_map]
    simp [dots, Function.comp_def]
  · intro up
    rcases List.mem_append.mp up with own | more
    · exact (proper _ own).notUp rfl
    rcases List.mem_append.mp more with inside | last
    · obtain ⟨piece, member, same⟩ := List.mem_map.mp inside
      exact leads.down (List.mem_map.mpr ⟨piece, (List.mem_filter.mp member).1, same⟩)
    · simp only [dots] at last
      split at last
      · simp at last
      · cases last

end Paths

section Files

variable (around platform) in
@[reducible] def fileTerms : Task.Terms DiskCall.Reply := .anyReply (around.Owns platform)

variable (around platform) in
def FileSteps {α : Type} (work : FileWork α) (good : α → Prop) : Prop :=
  Task.Steps (around.fileTerms platform) work good

theorem steps_call {call : DiskCall} (owns : around.Owns platform call) :
    around.FileSteps platform (FileWork.ask call) (fun _ => True) := Task.steps_ask owns

theorem steps_checked {α : Type} (doing : String) (path : Path) (reply : Except IoCause α) :
    around.FileSteps platform (FileWork.checked doing path reply) (fun _ => True) :=
  fun _ _ => trivial

theorem steps_removeDir (proper : ∀ name ∈ names, IsProper name) :
    around.FileSteps platform (Files.removeDir (around.own platform names)) (fun _ => True) := by
  refine Task.steps_bind (steps_call ⟨names, proper, rfl⟩) (fun reply _ => ?_)
  rcases reply with cause | ⟨⟩
  · cases cause
    case notFound => exact Task.steps_pure trivial
    all_goals exact steps_checked _ _ _
  · exact steps_checked _ _ _

theorem steps_makeDir (proper : ∀ name ∈ names, IsProper name) :
    around.FileSteps platform (Files.makeDir (around.own platform names)) (fun _ => True) :=
  Task.steps_bind (steps_call ⟨names, proper, rfl⟩) (fun _ _ => steps_checked _ _ _)

theorem steps_remakeDir (proper : ∀ name ∈ names, IsProper name) :
    around.FileSteps platform (Files.remakeDir (around.own platform names)) (fun _ => True) :=
  Task.steps_bind (steps_removeDir proper) (fun _ _ => steps_makeDir proper)

theorem steps_ensureDir (proper : ∀ name ∈ names, IsProper name) (erase : Bool) :
    around.FileSteps platform (Files.ensureDir (around.own platform names) erase)
      (fun _ => True) := by
  unfold Files.ensureDir
  split
  · exact steps_remakeDir proper
  · exact steps_makeDir proper

theorem steps_write (filled : names ≠ []) (proper : ∀ name ∈ names, IsProper name)
    (text : String) : around.FileSteps platform
      (Files.write (around.own platform names) text) (fun _ => True) := by
  obtain ⟨front, last, rfl⟩ := (List.eq_nil_or_concat names).resolve_left filled
  rw [List.concat_eq_append] at proper ⊢
  rw [Files.write_eq, parent_own proper]
  refine Task.steps_bind (steps_makeDir (fun name listed => proper name
    (List.mem_append_left _ listed))) (fun _ _ => ?_)
  exact Task.steps_bind (steps_call ⟨_, proper, rfl⟩) (fun _ _ => steps_checked _ _ _)

theorem steps_readText {path : Path} (below : around.Below platform path names) :
    around.FileSteps platform (Files.readText path) (fun _ => True) :=
  Task.steps_bind (steps_call ⟨names, below⟩) (fun _ _ => steps_checked _ _ _)

theorem steps_hasEntries {path : Path} (below : around.Below platform path names) :
    around.FileSteps platform (Files.hasEntries path) (fun _ => True) := by
  refine Task.steps_bind (steps_call ⟨names, below⟩) (fun reply _ => ?_)
  have listed (reply : Except IoCause (List String)) : around.FileSteps platform
      (do let found ← FileWork.checked "reading directory" path reply; pure !found.isEmpty)
      (fun _ => True) :=
    Task.steps_bind (steps_checked _ _ _) (fun _ _ => Task.steps_pure trivial)
  rcases reply with cause | found
  · cases cause
    case notFound => exact Task.steps_pure trivial
    case notDirectory => exact Task.steps_pure trivial
    all_goals exact listed _
  · exact listed _

end Files

section Work

variable (around platform) in
structure Describes (config : BundleConfig) : Prop where
  output : config.outputPath = around.own platform [builtDir]
  chunk : config.sharedChunk = around.settings.sharedModulesFile
  entries : ∀ key source, config.entry.get? key = some source →
    source = BundleConfig.entrySource key ∧ ∀ name ∈ namesOf key, IsProper name

variable (around platform) in
def OwnCall : Call → Prop
  | .file call => around.Owns platform call
  | .note _ => True
  | .beginPass other => other = platform
  | .install root => root = around.own platform []
  | .bundle config root => root = around.own platform [] ∧ around.Describes platform config

variable (around platform) in
@[reducible] def terms : Task.Terms Call.Reply := .anyReply (around.OwnCall platform)

variable (around platform) in
def WorkSteps {α : Type} (work : Work α) (good : α → Prop) : Prop :=
  Task.Steps (around.terms platform) work good

theorem steps_inWork {α : Type} {work : FileWork α} {good : α → Prop}
    (steps : around.FileSteps platform work good) :
    around.WorkSteps platform work.inWork good :=
  FileWork.steps_inWork steps

theorem steps_prepare (reset : Bool) :
    around.WorkSteps platform (Staging.prepare (around.own platform []) reset)
      (fun _ => True) := by
  have clears : around.WorkSteps platform (Staging.clearing (around.own platform []) reset)
      (fun _ => True) := by
    unfold Staging.clearing
    rw [own_one isProper_packagesDir, own_one isProper_builtDir]
    refine Task.steps_bind (steps_inWork (steps_ensureDir (by simp) reset)) (fun _ _ => ?_)
    refine Task.steps_bind (steps_inWork (steps_remakeDir ?_))
      (fun _ _ => steps_inWork (steps_remakeDir ?_))
    · simpa using isProper_packagesDir
    · simpa using isProper_builtDir
  exact Staging.steps_prepare (fun _ => trivial) clears

variable {settings : Settings} {registry : Registry} {files : List Classified}

theorem steps_stage {config : BundleConfig} (ordinary : ∀ file ∈ files, file.IsOrdinary) :
    around.WorkSteps platform (stage settings registry (around.own platform []) files config)
      (fun batch => batch.packages = manifestsFor settings registry files ∧
        batch.stagingNames = (ownersOf files).mapValues (fun _ => ()) ∧
        batch.config = (files.foldl Progress.withFile ⟨KeyMap.empty, config⟩).config) := by
  have packages : ∀ name ∈ [packagesDir], IsProper name := by simpa using isProper_packagesDir
  have named {name : String} (proper : IsProper name) :
      ∀ part ∈ [packagesDir] ++ [name], IsProper part :=
    proper_append_one packages proper
  refine Staging.steps_stage (fun _ => trivial) ?_ ?_ ?_ ?_
  · intro file listed
    have own := (ordinary file listed).staging
    rw [own_one isProper_packagesDir, own_div packages own.toIsSegment]
    exact steps_makeDir (named own)
  · intro file listed _
    have proper := (ordinary file listed).proper
    rw [own_one isProper_packagesDir, own_div_names packages (segments_of_proper proper)]
    refine steps_write (by simp) ?_ _
    simpa using ⟨isProper_packagesDir, proper⟩
  · intro entry listed
    have own : IsProper entry.1.text :=
      manifests_proper (fun file listed => (ordinary file listed).staging) entry listed
    rw [own_one isProper_packagesDir, own_div packages own.toIsSegment,
      own_div (named own) isProper_manifestFile.toIsSegment]
    refine steps_write (by simp) ?_ _
    simpa using ⟨isProper_packagesDir, own, isProper_manifestFile⟩
  · intro text
    rw [own_one isProper_manifestFile]
    exact steps_write (by simp) (by simpa using isProper_manifestFile) text

end Work

section Checks

theorem isProper_modulesDir : IsProper modulesDir := by decide

theorem brings_anyDirectory {paths : List Path}
    (below : ∀ path ∈ paths, ∃ names, around.Below platform path names) :
    (Closure.anyDirectory paths).Brings (around.fileTerms platform) (fun _ => True) := by
  induction paths with
  | nil => trivial
  | cons path rest ih =>
      refine ⟨below path List.mem_cons_self, fun found _ => ?_⟩
      change Task.Brings _ _ (if found = true then pure true else Closure.anyDirectory rest)
      split
      · trivial
      · exact ih (fun other listed => below other (List.mem_cons_of_mem _ listed))

theorem places_below {link : Closure.Link} (proper : IsProper link.package)
    (leads : LeadsDown link.dependency) :
    ∀ path ∈ Closure.places (around.own platform []) link,
      ∃ names, around.Below platform path names := by
  have modules : ∀ name ∈ [modulesDir], IsProper name := by simpa using isProper_modulesDir
  have packages : ∀ name ∈ [packagesDir], IsProper name := by simpa using isProper_packagesDir
  have installed : ∀ name ∈ [modulesDir, link.package], IsProper name := by
    simpa using ⟨isProper_modulesDir, proper⟩
  have staged : ∀ name ∈ [packagesDir, link.package], IsProper name := by
    simpa using ⟨isProper_packagesDir, proper⟩
  intro path listed
  unfold Closure.places at listed
  rw [own_one isProper_modulesDir, own_one isProper_packagesDir, own_div modules proper.toIsSegment,
    own_div packages proper.toIsSegment] at listed
  simp only [List.mem_cons, List.not_mem_nil, or_false, List.singleton_append] at listed
  rw [own_div installed isProper_modulesDir.toIsSegment,
    own_div staged isProper_modulesDir.toIsSegment] at listed
  rcases listed with rfl | rfl | rfl
  · exact below_div (proper_append_one installed isProper_modulesDir) leads
  · exact below_div (proper_append_one staged isProper_modulesDir) leads
  · exact below_div modules leads

theorem brings_missingLinks {links : List Closure.Link}
    (proper : ∀ link ∈ links, IsProper link.package ∧ LeadsDown link.dependency) :
    (Closure.missingLinks (around.own platform []) links).Brings (around.fileTerms platform)
      (fun _ => True) := by
  induction links with
  | nil => trivial
  | cons link rest ih =>
      obtain ⟨own, leads⟩ := proper link List.mem_cons_self
      refine Task.brings_bind (brings_anyDirectory (places_below own leads)) (fun _ _ => ?_)
      exact Task.brings_bind (ih (fun other listed => proper other (List.mem_cons_of_mem _ listed)))
        (fun _ _ => trivial)

theorem steps_verify {packages : KeyMap PackageManifest}
    (proper : ∀ link ∈ Closure.links packages, IsProper link.package ∧ LeadsDown link.dependency) :
    around.FileSteps platform (Closure.verify (around.own platform []) packages)
      (fun _ => True) := by
  have looks : around.FileSteps platform
      (ExceptT.lift (Closure.missingLinks (around.own platform []) (Closure.links packages)))
      (fun _ => True) :=
    Task.brings_bind (brings_missingLinks proper) (fun _ _ _ _ => trivial)
  refine Task.steps_bind looks (fun missing _ => ?_)
  cases missing with
  | nil => exact Task.steps_pure trivial
  | cons link rest => exact Task.steps_throw

theorem Describes.addFallback {config : BundleConfig} (describes : around.Describes platform config)
    (path : Path) : around.Describes platform (config.addFallback path) := by
  unfold BundleConfig.addFallback
  split
  · exact describes
  · exact ⟨describes.output, describes.chunk, describes.entries⟩

theorem brings_finalize {installed : List StagingName} {config : BundleConfig}
    (proper : ∀ name ∈ installed, IsProper name.text)
    (describes : around.Describes platform config) :
    (config.finalize (around.own platform []) installed).Brings (around.fileTerms platform)
      (fun outcome => around.Describes platform outcome.2) := by
  induction installed generalizing config with
  | nil => exact describes
  | cons name rest ih =>
      have own := proper name List.mem_cons_self
      have inside : ∀ part ∈ [modulesDir], IsProper part := by simpa using isProper_modulesDir
      have deeper : ∀ part ∈ [modulesDir, name.text], IsProper part := by
        simpa using ⟨isProper_modulesDir, own⟩
      have path : BundleConfig.installedTree (around.own platform []) name =
          around.own platform [modulesDir, name.text, modulesDir] := by
        rw [BundleConfig.installedTree, own_one isProper_modulesDir,
          own_div inside own.toIsSegment]
        exact own_div deeper isProper_modulesDir.toIsSegment
      have tree : ∀ part ∈ [modulesDir, name.text, modulesDir], IsProper part :=
        proper_append_one deeper isProper_modulesDir
      have later {config : BundleConfig} (describes : around.Describes platform config) :=
        ih (fun other listed => proper other (List.mem_cons_of_mem _ listed)) describes
      rw [BundleConfig.finalize]
      refine Task.brings_bind (steps_hasEntries (path ▸ below_own tree)) (fun result _ => ?_)
      rcases result with fault | _ | _
      · exact describes
      · exact later describes
      · exact later (describes.addFallback _)

theorem steps_finalized {installed : List StagingName} {config : BundleConfig}
    (proper : ∀ name ∈ installed, IsProper name.text)
    (describes : around.Describes platform config) :
    around.WorkSteps platform (Batch.finalized config (around.own platform []) installed)
      (around.Describes platform) := by
  have inside : (config.finalize (around.own platform []) installed).inTask.Brings
      (around.terms platform) (fun outcome => around.Describes platform outcome.2) :=
    Task.brings_lift (brings_finalize proper describes) (fun _ owns => owns) (fun _ _ _ => trivial)
  refine Task.brings_bind inside (fun outcome described => ?_)
  obtain ⟨result, after⟩ := outcome
  cases result with
  | error fault => rintro _ ⟨⟩
  | ok value =>
      rintro _ ⟨⟩
      exact described

theorem steps_stitch {stitcher : Stitcher} {config : BundleConfig} {files : List Classified}
    (describes : around.Describes platform config) (ordinary : ∀ file ∈ files, file.IsOrdinary)
    (leads : config.entry.isEmpty = false → (∃ file ∈ files, file.kind = .sharedPlaceholder) →
      LeadsDown around.settings.sharedModulesFile) :
    around.FileSteps platform (stitcher.stitch config files) (fun _ => True) := by
  have built : ∀ name ∈ [builtDir], IsProper name := by simpa using isProper_builtDir
  have going (shared : Option String) : around.FileSteps platform
      (stitcher.stitchFrom config shared files) (fun _ => True) := by
    induction files generalizing shared with
    | nil => exact Task.steps_pure trivial
    | cons file rest ih =>
        have leadsLater : config.entry.isEmpty = false →
            (∃ file ∈ rest, file.kind = .sharedPlaceholder) →
              LeadsDown around.settings.sharedModulesFile := by
          rintro filled ⟨other, listed, kind⟩
          exact leads filled ⟨other, List.mem_cons_of_mem _ listed, kind⟩
        have later (shared : Option String) := ih
          (fun other listed => ordinary other (List.mem_cons_of_mem _ listed)) leadsLater shared
        have own := ordinary file List.mem_cons_self
        rw [Stitcher.stitchFrom]
        split
        · rename_i kind
          have ending (chunk : String) : around.FileSteps platform
              (do let others ← stitcher.stitchFrom config (some chunk) rest
                  pure (Stitcher.artifactOf file (stitcher.sharedText chunk) :: others))
              (fun _ => True) :=
            Task.steps_bind (later _) (fun _ _ => Task.steps_pure trivial)
          split
          · exact ending _
          · have reads : around.FileSteps platform (Stitcher.readShared config)
                (fun _ => True) := by
              unfold Stitcher.readShared
              split
              · exact Task.steps_pure trivial
              · rename_i filled
                have leadsHere := leads (by simpa using filled) ⟨file, List.mem_cons_self, kind⟩
                obtain ⟨names, below⟩ : ∃ rest, around.Below platform
                    (around.own platform [builtDir] / around.settings.sharedModulesFile) rest :=
                  below_div built leadsHere
                rw [BundleConfig.sharedChunkPath, describes.output, describes.chunk]
                exact steps_readText below
            exact Task.steps_bind reads (fun _ _ => ending _)
        · have path : config.entryChunkPath file.stagedPath =
              around.own platform (builtDir :: namesOf file.stagedPath) := by
            rw [BundleConfig.entryChunkPath, describes.output]
            exact own_div_names built (segments_of_proper own.proper)
          have proper : ∀ name ∈ builtDir :: namesOf file.stagedPath, IsProper name := by
            intro name listed
            rcases List.mem_cons.mp listed with rfl | inside
            · exact isProper_builtDir
            · exact own.proper name inside
          refine Task.steps_bind (steps_readText (path ▸ below_own proper)) (fun _ _ => ?_)
          exact Task.steps_bind (later _) (fun _ _ => Task.steps_pure trivial)
        all_goals exact Task.steps_bind (later _) (fun _ _ => Task.steps_pure trivial)
  exact going none

end Checks

section Batches

variable (around platform) in
def BatchSteps {α : Type} (work : BatchWork α) (good : α → Prop) : Prop :=
  Task.Steps (around.terms platform) work good

theorem steps_report (message : String) :
    around.BatchSteps platform (Batch.note message) (fun _ => True) := Task.steps_ask trivial

end Batches

end Surroundings

def Batch.HasEntry (settings : Settings) (files : List InputFile) : Prop :=
  ∃ file ∈ files, kindOf settings file = .entry

/-- What a batch looks up under a name of its own leads down from where it is looked up. -/
structure Batch.StaysBelow (settings : Settings) (registry : Registry) (files : List InputFile) :
    Prop where
  dependencies : ∀ file ∈ files, hasManifest settings file.package = true →
    ∀ dependency, (dependenciesOf registry file.package).contains dependency = true →
      LeadsDown dependency
  shared : (∃ file ∈ files, kindOf settings file = .sharedPlaceholder) →
    LeadsDown settings.sharedModulesFile

namespace Surroundings

section Batches

variable {around : Surroundings} {platform : Platform} {registry : Registry}
  {files : List InputFile}

theorem Describes.withFile {progress : Progress} {file : Classified}
    (describes : around.Describes platform progress.config) (ordinary : file.IsOrdinary) :
    around.Describes platform (progress.withFile file).config := by
  refine ⟨?_, ?_, fun key source found => ?_⟩
  · exact (withFile_outputPath file progress).trans describes.output
  · exact (withFile_sharedChunk file progress).trans describes.chunk
  · rw [withFile_entry] at found
    split at found
    · rename_i own
      cases found
      exact ⟨rfl, own.2 ▸ ordinary.proper⟩
    · exact describes.entries key source found

theorem Describes.withFiles {files : List Classified} {progress : Progress}
    (describes : around.Describes platform progress.config)
    (ordinary : ∀ file ∈ files, file.IsOrdinary) :
    around.Describes platform (files.foldl Progress.withFile progress).config := by
  induction files generalizing progress with
  | nil => exact describes
  | cons file rest ih =>
      exact ih (describes.withFile (ordinary file List.mem_cons_self))
        (fun other listed => ordinary other (List.mem_cons_of_mem _ listed))

theorem owner_of_file {files : List Classified} {name : String} {owner : PackageId}
    (found : (ownersOf files).get? name = some owner) :
    ∃ file ∈ files, file.stagingName.text = name ∧ file.package = owner := by
  rw [get?_ownersOf] at found
  obtain ⟨file, first, package⟩ := Option.map_eq_some_iff.mp found
  have named := List.find?_some first
  exact ⟨file, List.mem_reverse.mp (List.mem_of_find?_eq_some first), by simpa using named, package⟩

structure Staged (around : Surroundings) (platform : Platform) (registry : Registry)
    (files : List InputFile) (batch : StagedBatch) : Prop where
  filled : batch.config.entry.isEmpty = false → Batch.HasEntry around.settings files
  links : Batch.StaysBelow around.settings registry files →
    ∀ link ∈ Closure.links batch.packages, IsProper link.package ∧ LeadsDown link.dependency
  installed : ∀ name ∈ batch.stagingNames.keys.map StagingName.mk, IsProper name.text
  describes : around.Describes platform batch.config

theorem staged_of_described {batch : StagedBatch} {config : BundleConfig}
    (ordinary : ∀ file ∈ files, file.IsOrdinary) (fresh : config.entry = KeyMap.empty)
    (starts : around.Describes platform config)
    (packages : batch.packages =
      manifestsFor around.settings registry (files.map (classify around.settings)))
    (names : batch.stagingNames =
      (ownersOf (files.map (classify around.settings))).mapValues (fun _ => ()))
    (described : batch.config = ((files.map (classify around.settings)).foldl Progress.withFile
      ⟨KeyMap.empty, config⟩).config) : Staged around platform registry files batch := by
  have classified : ∀ file ∈ files.map (classify around.settings), file.IsOrdinary := by
    intro file listed
    obtain ⟨input, member, rfl⟩ := List.mem_map.mp listed
    exact isOrdinary_classify around.settings (ordinary input member)
  have owned {name : String} {owner : PackageId}
      (found : (ownersOf (files.map (classify around.settings))).get? name = some owner) :
      IsProper name ∧ ∃ file ∈ files, file.package = owner := by
    obtain ⟨file, listed, rfl, rfl⟩ := owner_of_file found
    obtain ⟨input, member, same⟩ := List.mem_map.mp listed
    exact ⟨(classified file listed).staging, input, member, by rw [← same]; rfl⟩
  refine ⟨?_, ?_, ?_, ?_⟩
  · intro filled
    obtain ⟨key, source, found⟩ := KeyMap.isEmpty_eq_false_iff.mp filled
    rw [described, entry_get?_iff fresh] at found
    obtain ⟨-, file, listed, entry, -⟩ := found
    obtain ⟨input, member, rfl⟩ := List.mem_map.mp listed
    exact ⟨input, member, entry⟩
  · intro below link listed
    obtain ⟨manifest, found, declared⟩ := Closure.mem_links.mp listed
    rw [packages, get?_manifestsFor] at found
    obtain ⟨owner, found, has, rfl⟩ := found
    rw [contains_packageManifest] at declared
    obtain ⟨proper, file, member, rfl⟩ := owned found
    exact ⟨proper, below.dependencies file member has _ declared⟩
  · intro name listed
    obtain ⟨key, known, rfl⟩ := List.mem_map.mp listed
    rw [names, KeyMap.mem_keys_iff, KeyMap.contains_iff] at known
    obtain ⟨value, found⟩ := known
    rw [KeyMap.get?_mapValues] at found
    obtain ⟨owner, found, -⟩ := Option.map_eq_some_iff.mp found
    exact (owned found).1
  · rw [described]
    have first : around.Describes platform (Progress.config ⟨KeyMap.empty, config⟩) := starts
    exact first.withFiles classified

theorem steps_stageAll (ordinary : ∀ file ∈ files, file.IsOrdinary) :
    around.BatchSteps platform (Batch.stageAll around.settings registry platform
      (files.map (classify around.settings))) (Staged around platform registry files) := by
  have classified : ∀ file ∈ files.map (classify around.settings), file.IsOrdinary := by
    intro file listed
    obtain ⟨input, member, rfl⟩ := List.mem_map.mp listed
    exact isOrdinary_classify around.settings (ordinary input member)
  have starts : around.Describes platform
      (Batch.startConfig around.settings platform (around.own platform [])) :=
    ⟨own_one isProper_builtDir, rfl, by simp [Batch.startConfig, BundleConfig.start]⟩
  unfold Batch.stageAll
  dsimp only
  rw [around.stagingRoot_eq_own platform]
  refine Task.steps_bind (Task.steps_ask rfl) (fun first _ => ?_)
  refine Task.steps_bind (Batch.steps_inStage (steps_prepare _)) (fun _ _ => ?_)
  refine Task.steps_mono (Batch.steps_inStage (steps_stage classified)) (fun batch described => ?_)
  obtain ⟨packages, names, config⟩ := described
  exact staged_of_described ordinary rfl starts packages names config

theorem steps_bundleAll {staged : StagedBatch}
    (described : Staged around platform registry files staged)
    (below : Batch.StaysBelow around.settings registry files) :
    around.BatchSteps platform (Batch.bundleAll platform (around.own platform []) staged)
      (around.Describes platform) := by
  have installs : around.WorkSteps platform
      (ExceptT.mk (WorldTask.ask (.install (around.own platform [])))) (fun _ => True) :=
    ⟨rfl, fun _ _ _ _ => trivial⟩
  have bundles {config : BundleConfig} (describes : around.Describes platform config) :
      around.WorkSteps platform
        (ExceptT.mk (WorldTask.ask (.bundle config (around.own platform [])))) (fun _ => True) :=
    ⟨⟨rfl, describes⟩, fun _ _ _ _ => trivial⟩
  unfold Batch.bundleAll
  refine Task.steps_bind (steps_report _) (fun _ _ => ?_)
  refine Task.steps_bind (Batch.steps_inStage installs) (fun _ _ => ?_)
  refine Task.steps_bind (Batch.steps_inStage (steps_inWork (steps_verify (described.links below))))
    (fun _ _ => ?_)
  refine Task.steps_bind
    (Batch.steps_inStage (steps_finalized described.installed described.describes))
    (fun config describes => ?_)
  refine Task.steps_bind (steps_report _) (fun _ _ => ?_)
  exact Task.steps_bind (Batch.steps_inStage (bundles describes))
    (fun _ _ => Task.steps_pure describes)

theorem steps_processFor (ordinary : ∀ file ∈ files, file.IsOrdinary)
    (below : Batch.HasEntry around.settings files →
      Batch.StaysBelow around.settings registry files) :
    around.BatchSteps platform (Batch.processFor around.settings registry platform files)
      (fun _ => True) := by
  have stitches {config : BundleConfig} (describes : around.Describes platform config)
      (filled : config.entry.isEmpty = false → Batch.HasEntry around.settings files)
      (stitcher : Stitcher) : around.FileSteps platform
        (stitcher.stitch config (files.map (classify around.settings))) (fun _ => True) := by
    refine steps_stitch describes ?_ ?_
    · intro file listed
      obtain ⟨input, member, rfl⟩ := List.mem_map.mp listed
      exact isOrdinary_classify around.settings (ordinary input member)
    · rintro entries ⟨file, listed, kind⟩
      obtain ⟨input, member, rfl⟩ := List.mem_map.mp listed
      exact (below (filled entries)).shared ⟨input, member, kind⟩
  unfold Batch.processFor
  dsimp only
  refine Task.steps_bind (steps_report _) (fun _ _ => ?_)
  refine Task.steps_bind (Batch.steps_checkOwnPackage (fun _ => trivial)) (fun _ _ => ?_)
  refine Task.steps_bind (steps_stageAll ordinary) (fun staged described => ?_)
  rw [around.stagingRoot_eq_own platform]
  refine Task.steps_bind (steps_report _) (fun _ _ => ?_)
  have ending {config : BundleConfig} (describes : around.Describes platform config)
      (filled : config.entry.isEmpty = false → Batch.HasEntry around.settings files) :
      around.BatchSteps platform (do
        let artifacts ← Batch.inStage .stitching platform
          ((Stitcher.ofSettings around.settings (around.settings.capabilities platform)).stitch
            config (files.map (classify around.settings))).inWork
        Batch.note (Batch.producedText platform artifacts)
        pure artifacts) (fun _ => True) := by
    refine Task.steps_bind (Batch.steps_inStage (steps_inWork (stitches describes filled _)))
      (fun _ _ => ?_)
    exact Task.steps_bind (steps_report _) (fun _ _ => Task.steps_pure trivial)
  split
  · refine Task.steps_bind (steps_report _) (fun _ _ => ?_)
    exact ending described.describes described.filled
  · rename_i entries
    have some := described.filled (by simpa using entries)
    exact Task.steps_bind (steps_bundleAll described (below some))
      (fun config describes => ending describes (fun _ => some))

end Batches

end Surroundings

end PlatformBundle
