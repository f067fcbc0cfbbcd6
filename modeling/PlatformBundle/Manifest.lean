import PlatformBundle.Json.Printer
import PlatformBundle.Json.Reader
import PlatformBundle.Json.Record
import PlatformBundle.Package
import PlatformBundle.Version
/-!
The manifests of a staging root. Each staged package has one that names its third-party
dependencies, and the one at the top names the staged packages and the tools. A manifest file is
the manifest as wide JSON and a newline.
-/

namespace PlatformBundle

def manifestFile : String := "package.json"

def stagedVersion : String := "0.0.0"

structure PackageManifest where
  name : String
  version : String
  dependencies : KeyMap String
  deriving DecidableEq

structure TopManifest where
  /-- Where each staged package is found, by staging name. -/
  dependencies : KeyMap String
  devDependencies : KeyMap String
  deriving DecidableEq

def manifestText (manifest : Json) : String := manifest.wideText 0 ++ "\n"

namespace PackageManifest

def ofDependencies (name : StagingName) (dependencies : KeyMap String) : PackageManifest where
  name := name.text
  version := stagedVersion
  dependencies := dependencies.mapValues Constraint.normalize

def toJson (manifest : PackageManifest) : Json :=
  .object [("name", .string manifest.name), ("version", .string manifest.version),
    ("dependencies", Json.ofMap manifest.dependencies)]

def fileText (manifest : PackageManifest) : String := manifestText manifest.toJson

open Json in
def ofTerm? (term : Term) : Option PackageManifest := do
  match ← term.record? ["name", "version", "dependencies"] with
  | [some name, some version, dependencies] =>
      some {
        name := ← name.text?
        version := ← version.text?
        dependencies := ← Term.orElse? KeyMap.empty (Term.mapOf? Term.text?) dependencies }
  | _ => none

def read (text : String) : Except Fault PackageManifest :=
  match (Json.readTerm text.toList).bind ofTerm? with
  | some manifest => .ok manifest
  | none => .error .json

end PackageManifest

namespace TopManifest

/-- The manifest before any package is added to it. -/
def ofTools (tools : KeyMap String) : TopManifest := ⟨KeyMap.empty, tools⟩

def localPlace (name : StagingName) : String := "file:./packages/" ++ name.text

def addPackage (manifest : TopManifest) (name : StagingName) : TopManifest :=
  { manifest with dependencies := manifest.dependencies.insert name.text (localPlace name) }

/-- The tools are left out when there are none. -/
def toJson (manifest : TopManifest) : Json :=
  .object (("dependencies", Json.ofMap manifest.dependencies) ::
    (if manifest.devDependencies.isEmpty then []
      else [("devDependencies", Json.ofMap manifest.devDependencies)]))

def fileText (manifest : TopManifest) : String := manifestText manifest.toJson

open Json in
def ofTerm? (term : Term) : Option TopManifest := do
  match ← term.record? ["dependencies", "devDependencies"] with
  | [dependencies, devDependencies] =>
      let read := Term.orElse? KeyMap.empty (Term.mapOf? Term.text?)
      some ⟨← read dependencies, ← read devDependencies⟩
  | _ => none

def read (text : String) : Except Fault TopManifest :=
  match (Json.readTerm text.toList).bind ofTerm? with
  | some manifest => .ok manifest
  | none => .error .json

end TopManifest

end PlatformBundle
