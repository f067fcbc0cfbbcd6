import PlatformBundle.Proofs.DiskGrowth
import PlatformBundle.Rehearsal
/-!
What can be asked of the two tools. An installation leaves the staged sources where they are and
puts no link into the output directory. A bundling tool writes chunks, and what it has done by then
is a history: it may have looked at a source at any time, and have done other work in between.
-/

namespace PlatformBundle

open FileTree Disk

/-- The sources below a root stay the files that they were, and the output directory stays in its
place and gets no link. -/
structure Disk.Undisturbed (root : Path) (before after : Disk) : Prop where
  grounded : before.tree.Grounded → after.tree.Grounded
  sources : ∀ (stagedPath : String) (place : RealPath) (content : ByteArray) (executable : Bool),
    before.stat (root / "packages" / stagedPath) = .ok (place, .file content executable) →
      after.stat (root / "packages" / stagedPath) = .ok (place, .file content executable)
  output : ∀ place, before.stat (root / "built") = .ok (place, .directory) →
    before.tree.Linkless place →
      after.stat (root / "built") = .ok (place, .directory) ∧ after.tree.Linkless place

def Tools.KeepsSources (tools : Tools) (disk : Disk) (root : Path) : Prop :=
  disk.tree.Grounded → (tools.install disk root).result = .ok () →
    disk.Undisturbed root (tools.install disk root).disk

section Histories

variable (compile : String → String) (config : BundleConfig) (root : Path) (start : Disk)

/-- A history of a bundling tool: the disks that it has worked on, the one it has come to and the
entries whose chunks were written. -/
inductive Emitting : List Disk → Disk → List String → Prop where
  | opening : Emitting [] start []
  /-- The text of an entry's source is compiled; it was read on any of the disks until then. -/
  | chunk {past done : _} {now seen left : Disk} {stagedPath source text : String}
      (before : Emitting past now done) (listed : config.entry.get? stagedPath = some source)
      (looked : seen ∈ now :: past) (read : seen.readText (root / source) = .ok text)
      (wrote : (Files.write (config.outputPath / stagedPath) (compile text)).onDisk now =
        (.ok (), left)) :
      Emitting (now :: past) left (stagedPath :: done)
  | shared {past done : _} {now left : Disk} {text : String} (before : Emitting past now done)
      (wrote : (Files.write (config.outputPath / config.sharedChunk) text).onDisk now =
        (.ok (), left)) :
      Emitting (now :: past) left done
  /-- Other work, which leaves the sources and the chunks that were written as they are. -/
  | aside {past done : _} {now left : Disk} (before : Emitting past now done)
      (undisturbed : now.Undisturbed root left)
      (chunks : ∀ stagedPath ∈ done, ∀ text,
        now.readText (config.outputPath / stagedPath) = .ok text →
          left.readText (config.outputPath / stagedPath) = .ok text) :
      Emitting (now :: past) left done

/-- A bundling tool that succeeds has written the chunk of every entry, each time by compiling the
text of the entry's source. -/
def Tools.Compiles (tools : Tools) (compile : String → String) : Prop :=
  ∀ (disk : Disk) (config : BundleConfig) (root : Path),
    (tools.bundle disk config root).result = .ok () →
      ∃ past done,
        Emitting compile config root disk past (tools.bundle disk config root).disk done ∧
        ∀ stagedPath source, config.entry.get? stagedPath = some source → stagedPath ∈ done

end Histories

theorem Disk.Undisturbed.of_grown {root : Path} {before after : Disk}
    (absolute : root.isAbsolute = true) (grown : Grown (fun _ => True) before.tree after.tree) :
    Undisturbed root before after where
  grounded := fun _ => grown.grounded
  sources := fun stagedPath _ _ _ found =>
    stat_grow (Path.isAbsolute_div (Path.isAbsolute_div absolute _) stagedPath) grown.toGrows
      (Or.inl trivial) found
  output := fun _ found clear =>
    ⟨stat_grow (Path.isAbsolute_div absolute _) grown.toGrows (Or.inr rfl) found,
      grown.linkless clear⟩

namespace Rehearsal

section Installing

variable (installer : InstallerPlan) (bundler : BundlerPlan)

end Installing

section Bundling

variable {plan : BundlerPlan} {config : BundleConfig} {root : Path} {start now left : Disk}
  {past : List Disk} {done : List String}

def wrapped (plan : BundlerPlan) (text : String) : String := plan.before ++ text ++ plan.after

end Bundling

end Rehearsal

end PlatformBundle
