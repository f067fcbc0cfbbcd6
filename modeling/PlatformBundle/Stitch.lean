import PlatformBundle.Artifact
import PlatformBundle.BundleConfig
import PlatformBundle.Input
import PlatformBundle.Text.Replace
/-!
Turning chunks back into one artifact per input file. The shared chunk goes to the placeholder,
an entry's chunk to the entry, and every other file gets an empty artifact. What a platform offers
decides what is put in front of a chunk: without a global object the shared chunk declares the
namespace and uses it in place of the global, and without a linked namespace every entry merges
the namespace into its own scope.
-/

namespace PlatformBundle

structure Stitcher where
  sharedNamespace : String
  browserGlobal : String
  ownPackage : PackageId
  capabilities : Capabilities
  deriving DecidableEq

namespace Stitcher

def ofSettings (settings : Settings) (capabilities : Capabilities) : Stitcher where
  sharedNamespace := settings.sharedNamespace
  browserGlobal := settings.browserGlobal
  ownPackage := settings.ownPackage
  capabilities

def redirected (stitcher : Stitcher) (chunk : String) : String :=
  String.ofList (Text.replaceWord stitcher.browserGlobal.toList stitcher.sharedNamespace.toList
    chunk.toList)

def declaration (stitcher : Stitcher) : String := stitcher.sharedNamespace ++ " = \x7b\x7d;\n"

/-- Copies the published namespace, level by level, into the scope of an entry. -/
def mergePrelude (stitcher : Stitcher) : String :=
  let extend := stitcher.sharedNamespace ++ "Extend"
  "function " ++ extend ++ "(target, source) \x7b\n" ++
  "    target = target || \x7b\x7d;\n" ++
  "    for (var prop in source) \x7b\n" ++
  "        if (typeof source[prop] === 'object' && source[prop] !== null) \x7b\n" ++
  "            target[prop] = " ++ extend ++ "(target[prop], source[prop]);\n" ++
  "        \x7d else \x7b\n" ++
  "            target[prop] = source[prop];\n" ++
  "        \x7d\n" ++
  "    \x7d\n" ++
  "    return target;\n" ++
  "\x7d\n" ++
  extend ++ "(this, Package['" ++ stitcher.ownPackage.display ++ "']." ++
  stitcher.sharedNamespace ++ ");\n"

def sharedText (stitcher : Stitcher) (chunk : String) : String :=
  if stitcher.capabilities.ambientGlobal then chunk
  else stitcher.declaration ++ stitcher.redirected chunk

def entryText (stitcher : Stitcher) (chunk : String) : String :=
  if stitcher.capabilities.linksSharedNamespace then chunk
  else stitcher.mergePrelude ++ chunk

def artifactOf (file : Classified) (data : String) : Artifact where
  path := file.fileName
  data
  sourcePath := file.sourcePath
  sourceMap := none

/-- The shared chunk; where nothing was bundled it is empty. -/
def readShared (config : BundleConfig) : FileWork String :=
  if config.entry.isEmpty then pure "" else Files.readText config.sharedChunkPath

-- `shared` is the shared chunk once it has been read.
def stitchFrom (stitcher : Stitcher) (config : BundleConfig) :
    Option String → List Classified → FileWork (List Artifact)
  | _, [] => pure []
  | shared, file :: rest =>
      match file.kind with
      | .sharedPlaceholder => do
          let chunk ← match shared with
            | some chunk => pure chunk
            | none => readShared config
          let others ← stitchFrom stitcher config (some chunk) rest
          pure (artifactOf file (stitcher.sharedText chunk) :: others)
      | .entry => do
          let chunk ← Files.readText (config.entryChunkPath file.stagedPath)
          let others ← stitchFrom stitcher config shared rest
          pure (artifactOf file (stitcher.entryText chunk) :: others)
      | .script | .unsupported => do
          let others ← stitchFrom stitcher config shared rest
          pure (artifactOf file "" :: others)

def stitch (stitcher : Stitcher) (config : BundleConfig) (files : List Classified) :
    FileWork (List Artifact) :=
  stitcher.stitchFrom config none files

end Stitcher

end PlatformBundle
