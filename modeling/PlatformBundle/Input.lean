import PlatformBundle.Settings.Basic
import PlatformBundle.Text.Pieces
/-!
Input files and what becomes of them. The kind of a file decides how it is staged and what its
artifact holds; it depends on the file's name, owner and extension and on the settings alone.
-/

namespace PlatformBundle

structure InputFile where
  package : PackageId
  fileName : String
  source : String
  extension : String
  platform : Platform
  deriving DecidableEq

/-- What follows the last dot, unless the dot comes first or right after a separator. -/
def extensionOf (fileName : String) : String :=
  match Text.cutLast '.' fileName.toList with
  | none => ""
  | some (stem, ending) =>
      if stem.isEmpty || stem.getLast? == some '/' then "" else String.ofList ending

def InputFile.ofSource (package : PackageId) (fileName source : String) (platform : Platform) :
    InputFile :=
  { package, fileName, source, extension := extensionOf fileName, platform }

inductive FileKind where
  /-- Staged, and bundled into a chunk of its own. -/
  | entry
  /-- The own package's file that receives the shared chunk. -/
  | sharedPlaceholder
  /-- A script that lives on in the entry that imports it. -/
  | script
  | unsupported
  deriving DecidableEq

structure Classified where
  package : PackageId
  fileName : String
  stagingName : StagingName
  /-- The place of the file below the directories of staged sources and of chunks. -/
  stagedPath : String
  source : String
  extension : String
  platform : Platform
  kind : FileKind
  deriving DecidableEq

def Classified.sourcePath (file : Classified) : String :=
  file.package.nameOrEmpty ++ "/" ++ file.fileName

def endsWith (text ending : String) : Bool := ending.toList.isSuffixOf text.toList

def kindOf (settings : Settings) (file : InputFile) : FileKind :=
  if endsWith file.fileName settings.sharedModulesFile && file.package == settings.ownPackage then
    .sharedPlaceholder
  else if endsWith file.fileName settings.entrySuffix then .entry
  else if file.extension = "js" then .script
  else .unsupported

def classify (settings : Settings) (file : InputFile) : Classified where
  package := file.package
  fileName := file.fileName
  stagingName := file.package.stagingName
  stagedPath := file.package.stagingName.text ++ "/" ++ file.fileName
  source := file.source
  extension := file.extension
  platform := file.platform
  kind := kindOf settings file

end PlatformBundle
