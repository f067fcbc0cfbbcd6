import PlatformBundle.BundleConfig
import PlatformBundle.Manifest
/-!
The check that every declared dependency was installed. A dependency of a staged package is found
below the installed package, below the staged sources of the package, or at the top.
-/

namespace PlatformBundle.Closure

structure Link where
  package : String
  dependency : String
  deriving DecidableEq

def Link.text (link : Link) : String := link.package ++ " -> " ++ link.dependency

def links (packages : KeyMap PackageManifest) : List Link :=
  packages.entries.flatMap (fun entry => entry.2.dependencies.keys.map (Link.mk entry.1))

def places (root : Path) (link : Link) : List Path :=
  [root / modulesDir / link.package / modulesDir / link.dependency,
    root / packagesDir / link.package / modulesDir / link.dependency,
    root / modulesDir / link.dependency]

def anyDirectory : List Path → DiskTask Bool
  | [] => pure false
  | path :: rest => do
      if ← Task.ask (.isDirectory path) then pure true else anyDirectory rest

def missingLinks (root : Path) : List Link → DiskTask (List Link)
  | [] => pure []
  | link :: rest => do
      let found ← anyDirectory (places root link)
      let missing ← missingLinks root rest
      pure (if found then missing else link :: missing)

def verify (root : Path) (packages : KeyMap PackageManifest) : FileWork Unit := do
  match ← ExceptT.lift (missingLinks root (links packages)) with
  | [] => pure ()
  | missing => throw (.missingDependencies (missing.map Link.text))

end PlatformBundle.Closure
