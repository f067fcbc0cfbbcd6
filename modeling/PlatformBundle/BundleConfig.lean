import PlatformBundle.Files
import PlatformBundle.Json.Printer
import PlatformBundle.Package
/-!
The description of a bundle. Entries are added while files are staged, and a fallback directory
for every package whose own dependencies were installed below it. Each entry's chunk, and the
shared chunk, have their places below the output directory.
-/

namespace PlatformBundle

def builtDir : String := "built"

def packagesDir : String := "packages"

def modulesDir : String := "node_modules"

structure BundleConfig where
  /-- From the staged path of an entry to its source. -/
  entry : KeyMap String
  outputPath : Path
  chunkPattern : String
  /-- The object that shared code is attached to, when it is not the browser global. -/
  globalObject : Option String
  /-- The directories searched for modules, in order. -/
  fallback : List Path
  sharedChunk : String
  deriving DecidableEq

namespace BundleConfig

def start (root : Path) (sharedChunk : String) (globalObject : Option String) : BundleConfig where
  entry := KeyMap.empty
  outputPath := root / builtDir
  chunkPattern := "[name]"
  globalObject
  fallback := []
  sharedChunk

def entrySource (stagedPath : String) : String := "./" ++ packagesDir ++ "/" ++ stagedPath

theorem entrySource_text (stagedPath : String) :
    entrySource stagedPath = "./packages/" ++ stagedPath := by
  have front : "./" ++ packagesDir ++ "/" = "./packages/" := by decide
  rw [entrySource, front]

def addEntry (config : BundleConfig) (stagedPath : String) : BundleConfig :=
  { config with entry := config.entry.insert stagedPath (entrySource stagedPath) }

/-- A directory that is there already, perhaps with another text, is not added again. -/
def addFallback (config : BundleConfig) (path : Path) : BundleConfig :=
  if config.fallback.any (·.sameAs path) then config
  else { config with fallback := config.fallback ++ [path] }

def installedTree (root : Path) (name : StagingName) : Path :=
  root / modulesDir / name.text / modulesDir

/-- Adds the fallbacks of the named packages, and keeps those added before a failure. -/
def finalize (config : BundleConfig) (root : Path) :
    List StagingName → DiskTask (Except Fault Unit × BundleConfig)
  | [] => pure (.ok (), config)
  | name :: rest => do
      let tree := installedTree root name
      match ← (Files.hasEntries tree).run with
      | .error fault => pure (.error fault, config)
      | .ok true => (config.addFallback tree).finalize root rest
      | .ok false => config.finalize root rest

def entryChunkPath (config : BundleConfig) (stagedPath : String) : Path :=
  config.outputPath / stagedPath

def sharedChunkPath (config : BundleConfig) : Path := config.outputPath / config.sharedChunk

/-- The chunks that a complete run leaves, the shared one first. -/
def expectedChunks (config : BundleConfig) : List Path :=
  config.sharedChunkPath :: config.entry.keys.map config.entryChunkPath

def outputJson (config : BundleConfig) : Json :=
  .object ([("path", .string config.outputPath.text), ("filename", .string config.chunkPattern)] ++
    match config.globalObject with
    | some name => [("globalObject", .string name)]
    | none => [])

def resolveJson (config : BundleConfig) : Json :=
  .object [("fallback", Json.ofStrings (config.fallback.map Path.text))]

def toJson (config : BundleConfig) : Json :=
  .object [("entry", Json.ofMap config.entry), ("output", config.outputJson),
    ("resolve", config.resolveJson)]

def missingChunks : List Path → DiskTask (List Path)
  | [] => pure []
  | path :: rest => do
      let found ← Task.ask (.isThere path)
      let missing ← missingChunks rest
      pure (if found then missing else path :: missing)

def missingText (emitted : List String) (path : Path) : String :=
  "expected chunk " ++ path.text ++ " was not emitted (built/ contains: " ++
    (if emitted.isEmpty then "nothing" else joinWith ", " emitted) ++ ")"

/-- Checks that every expected chunk is there, and reports each one that is not. -/
def verifyOutputs (config : BundleConfig) : FileWork Unit := do
  match ← ExceptT.lift (missingChunks config.expectedChunks) with
  | [] => pure ()
  | missing => do
      let emitted ← FileWork.ask (.filesBelow config.outputPath)
      let names := emitted.map (replaceChar '\\' '/')
      throw (.compileFailed (missing.map (fun path => ⟨missingText names path, none⟩)))

end BundleConfig

end PlatformBundle
