import PlatformBundle.Proofs.SharedWorlds
import PlatformBundle.Rehearsal
/-!
Tools that are confined to a staging root. A tool that works on files keeps to the root that it is
given if each of its calls does, since such calls are answered alike on disks that the platform
sees alike. The rehearsed tools are of this kind when the names that they are told lead down.
-/

namespace PlatformBundle

open FileTree Disk Staging Rehearsal

namespace Surroundings

variable {around : Surroundings} {platform : Platform}

theorem Alike.onDisk {α : Type} {pool solo : Disk} {task : DiskTask α} {good : α → Prop}
    (alike : around.Alike platform pool solo)
    (brings : task.Brings (around.fileTerms platform) good) :
    around.Joint platform pool (task.onDisk pool) (task.onDisk solo) := by
  induction task generalizing pool solo with
  | done value => exact alike.same rfl
  | call request next ih =>
      obtain ⟨owns, onward⟩ := brings
      have answered := alike.answer owns
      have rest := answered.after (ih (request.answer pool).1 answered.alike (onward _ trivial))
      have goes (disk : Disk) : DiskTask.onDisk (.call request next) disk =
          DiskTask.onDisk (next (request.answer disk).1) (request.answer disk).2 := rfl
      rwa [goes, goes, ← answered.result]

theorem confined_of_steps {tool : Disk → ToolRun} {work : FileWork Unit}
    (listed : platform ∈ around.site.platforms)
    (steps : around.FileSteps platform work (fun _ => True))
    (runs : ∀ disk, ((tool disk).result, (tool disk).disk) = work.onDisk disk) :
    around.Confined platform tool := by
  have joint {pool solo : Disk} (alike : around.Alike platform pool solo) :
      around.Joint platform pool ((tool pool).result, (tool pool).disk)
        ((tool solo).result, (tool solo).disk) := by
    rw [runs pool, runs solo]
    exact alike.onDisk steps
  have itself {disk : Disk} (kept : around.Kept disk)
      (enclosed : Enclosed disk.tree (around.site.fence platform)) :
      around.Alike platform disk disk := ⟨listed, kept, kept, fun _ _ => rfl, enclosed⟩
  constructor
  · intro pool solo alike
    exact ⟨(joint alike).result, fun place home => (joint alike).alike.agree_home home⟩
  · intro disk kept enclosed
    have both := joint (itself kept enclosed)
    exact ⟨both.alike.soloKept.workdir.trans kept.workdir.symm, both.outside⟩
  · intro disk kept enclosed
    exact (joint (itself kept enclosed)).alike.enclosed

section Rehearsed

theorem steps_makeDirs {dirs : List String}
    (proper : ∀ dir ∈ dirs, ∀ name ∈ namesOf dir, IsProper name) :
    around.FileSteps platform (makeDirs (around.own platform []) dirs) (fun _ => True) := by
  induction dirs with
  | nil => exact Task.steps_pure trivial
  | cons dir rest ih =>
      have own := proper dir List.mem_cons_self
      have path : around.own platform [] / dir = around.own platform (namesOf dir) :=
        own_div_names (by simp) (segments_of_proper own)
      rw [makeDirs, path]
      exact Task.steps_bind (steps_makeDir own)
        (fun _ _ => ih (fun other listed => proper other (List.mem_cons_of_mem _ listed)))

theorem steps_install {plan : InstallerPlan}
    (proper : ∀ dir ∈ plan.dirs, ∀ name ∈ namesOf dir, IsProper name) :
    around.FileSteps platform (do
      makeDirs (around.own platform []) plan.dirs
      match plan.failure with
      | some stderr => throw (.installFailed "npm install" "exit status: 1" stderr)
      | none => pure ()) (fun _ => True) := by
  refine Task.steps_bind (steps_makeDirs proper) (fun _ _ => ?_)
  split
  · exact Task.steps_throw
  · exact Task.steps_pure trivial

theorem leadsDown_entrySource {key : String} (proper : ∀ name ∈ namesOf key, IsProper name) :
    LeadsDown (BundleConfig.entrySource key) := by
  constructor
  · simp [Closure.IsRelative, BundleConfig.entrySource]
  · rw [namesOf_entrySource]
    intro up
    rcases List.mem_cons.mp up with same | later
    · exact absurd same (by decide)
    · rcases List.mem_cons.mp later with same | inside
      · exact isProper_packagesDir.notUp same.symm
      · exact (proper _ inside).notUp rfl

section Chunks

variable {plan : BundlerPlan} {config : BundleConfig}

theorem steps_writeChunks (output : config.outputPath = around.own platform [builtDir])
    {entries : List (String × String)}
    (sources : ∀ entry ∈ entries, entry.2 = BundleConfig.entrySource entry.1 ∧
      ∀ name ∈ namesOf entry.1, IsProper name) :
    around.FileSteps platform (writeChunks plan config (around.own platform []) entries)
      (fun _ => True) := by
  induction entries with
  | nil => exact Task.steps_pure trivial
  | cons entry rest ih =>
      obtain ⟨key, source⟩ := entry
      obtain ⟨rfl, own⟩ : source = BundleConfig.entrySource key ∧
          ∀ name ∈ namesOf key, IsProper name := sources _ List.mem_cons_self
      have later := ih (fun other listed => sources other (List.mem_cons_of_mem _ listed))
      have built : ∀ name ∈ [builtDir], IsProper name := by simpa using isProper_builtDir
      have proper : ∀ name ∈ builtDir :: namesOf key, IsProper name := by
        simpa using ⟨isProper_builtDir, own⟩
      have chunk : config.entryChunkPath key = around.own platform (builtDir :: namesOf key) := by
        rw [BundleConfig.entryChunkPath, output]
        exact own_div_names built (segments_of_proper own)
      obtain ⟨names, below⟩ : ∃ rest, around.Below platform
          (around.own platform [] / BundleConfig.entrySource key) rest :=
        below_div (by simp) (leadsDown_entrySource own)
      rw [writeChunks, chunk]
      dsimp only
      split
      · refine Task.steps_bind (steps_readText below) (fun _ _ => ?_)
        exact Task.steps_bind (steps_write (by simp) proper _) (fun _ _ => later)
      · exact later

theorem steps_emit (describes : around.Describes platform config)
    (trusting : plan.verify = false) (shared : plan.shared ≠ none →
      ∀ name ∈ namesOf around.settings.sharedModulesFile, IsProper name) :
    around.FileSteps platform (emit plan config (around.own platform [])) (fun _ => True) := by
  have sources : ∀ entry ∈ config.entry.entries, entry.2 = BundleConfig.entrySource entry.1 ∧
      ∀ name ∈ namesOf entry.1, IsProper name :=
    fun entry listed => describes.entries _ _ (KeyMap.get?_eq_some_iff.mpr listed)
  unfold emit
  rw [if_neg (by simp [trusting])]
  refine Task.steps_bind (steps_writeChunks describes.output sources) (fun _ _ => ?_)
  dsimp only
  split
  · rename_i text given
    have own := shared (by simp [given])
    have built : ∀ name ∈ [builtDir], IsProper name := by simpa using isProper_builtDir
    have proper : ∀ name ∈ builtDir :: namesOf around.settings.sharedModulesFile,
        IsProper name := by
      simpa using ⟨isProper_builtDir, own⟩
    have chunk : config.sharedChunkPath =
        around.own platform (builtDir :: namesOf around.settings.sharedModulesFile) := by
      rw [BundleConfig.sharedChunkPath, describes.output, describes.chunk]
      exact own_div_names built (segments_of_proper own)
    rw [chunk]
    exact Task.steps_bind (steps_write (by simp) proper _) (fun _ _ => Task.steps_pure trivial)
  · exact Task.steps_pure trivial

theorem steps_bundle (describes : around.Describes platform config)
    (trusting : plan.verify = false) (shared : plan.shared ≠ none →
      ∀ name ∈ namesOf around.settings.sharedModulesFile, IsProper name) :
    around.FileSteps platform (do
      match messagesFor plan config with
      | [] => emit plan config (around.own platform [])
      | messages => throw (.compileFailed (Report.diagnostics config messages)))
      (fun _ => True) := by
  split
  · exact steps_emit describes trusting shared
  · exact Task.steps_throw

end Chunks

theorem toolsConfined_rehearsed {installer : InstallerPlan} {bundler : BundlerPlan}
    (proper : ∀ dir ∈ installer.dirs, ∀ name ∈ namesOf dir, IsProper name)
    (trusting : bundler.verify = false) (shared : bundler.shared ≠ none →
      ∀ name ∈ namesOf around.settings.sharedModulesFile, IsProper name) :
    around.ToolsConfined (tools installer bundler) := by
  intro platform listed
  refine ⟨confined_of_steps listed (steps_install proper) (fun disk => rfl), ?_⟩
  intro config describes
  exact confined_of_steps listed (steps_bundle describes trusting shared) (fun disk => rfl)

end Rehearsed

end Surroundings

end PlatformBundle
