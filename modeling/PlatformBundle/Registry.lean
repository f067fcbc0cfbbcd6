import PlatformBundle.Disk.Operations
import PlatformBundle.Fault
import PlatformBundle.Json.Reader
import PlatformBundle.Json.Record
/-!
What the host knows about packages: which ones the application has installed, and the third-party
dependencies that each package declares.
-/

namespace PlatformBundle

structure Registry where
  installed : KeySet
  packages : KeyMap (KeyMap String)
  deriving DecidableEq

namespace Registry

def empty : Registry := ⟨KeyMap.empty, KeyMap.empty⟩

def isInstalled (registry : Registry) (package : String) : Bool :=
  registry.installed.contains package

def dependencies? (registry : Registry) (package : String) : Option (KeyMap String) :=
  registry.packages.get? package

open Json in
def ofTerm? (term : Term) : Option Registry := do
  match ← term.record? ["installed", "packages"] with
  | [installed, packages] =>
      let installed ← Term.orElse? [] Term.texts? installed
      let packages ← Term.orElse? KeyMap.empty (Term.mapOf? (Term.mapOf? Term.text?)) packages
      some ⟨KeySet.ofKeys installed, packages⟩
  | _ => none

def load (disk : Disk) (path : Path) : Except BuildError Registry :=
  match disk.readText path with
  | .error cause => .error (.config ("Failed to read " ++ path.text ++ ": " ++ cause.message))
  | .ok text =>
      match (Json.readTerm text.toList).bind ofTerm? with
      | none => .error (.config ("Failed to parse package registry " ++ path.text))
      | some registry => .ok registry

end Registry

end PlatformBundle
