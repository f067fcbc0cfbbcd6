import PlatformBundle.Shell.Effect
import PlatformBundle.Shell.Pattern
import PlatformBundle.Shell.TextUtility
/-!
Utilities that show or change what is on a disk.
-/

namespace PlatformBundle.Shell.FileUtility

def about (tool deed operand : String) (cause : IoCause) : String :=
  tool ++ ": " ++ deed ++ " " ++ inQuotes operand ++ ": " ++ cause.text

def makeDirs : Utility := fun disk _ arguments =>
  let (options, operands) := splitOptions arguments
  Effect.each disk (fun disk path =>
    Effect.ofResult
      (if options.contains 'p' then disk.createDirs ⟨path⟩ else disk.makeDir ⟨path⟩)
      (about "mkdir" "cannot create directory" path)) operands

def removeDirs : Utility := fun disk _ arguments =>
  Effect.each disk (fun disk path =>
    Effect.ofResult (disk.removeDir ⟨path⟩) (about "rmdir" "failed to remove" path))
    (splitOptions arguments).2

def removeOne (options : List Char) (disk : Disk) (path : String) : Effect :=
  let complaint := about "rm" "cannot remove" path
  match disk.removeFile ⟨path⟩ with
  | (.ok (), disk) => Effect.quiet disk
  | (.error .isDirectory, disk) =>
      if options.contains 'r' || options.contains 'R' then
        Effect.ofResult (disk.removeTree ⟨path⟩) complaint
      else Effect.failing disk (complaint .isDirectory) 1
  | (.error cause, disk) =>
      if options.contains 'f' && (cause = .notFound || cause = .notDirectory) then
        Effect.quiet disk
      else Effect.failing disk (complaint cause) 1

def remove : Utility := fun disk _ arguments =>
  let (options, operands) := splitOptions arguments
  Effect.each disk (removeOne options) operands

def touch : Utility := fun disk _ arguments =>
  Effect.each disk (fun disk path =>
    if disk.exists? ⟨path⟩ then Effect.quiet disk
    else Effect.ofResult (disk.write ⟨path⟩ ByteArray.empty) (about "touch" "cannot touch" path))
    (splitOptions arguments).2

def withSeparator (directory : String) : String :=
  if directory.toList.getLast? = some '/' then directory else directory ++ "/"

def destination (disk : Disk) (source target : String) : String :=
  if disk.isDirectory ⟨target⟩ then withSeparator target ++ TextUtility.nameOf source else target

/-- Copies a file; one that is new may be run if the one that it is copied from may. -/
def copyFile (disk : Disk) (source target : String) : DiskResult Unit :=
  match disk.stat ⟨source⟩ with
  | .error cause => (.error cause, disk)
  | .ok (_, .file content executable) =>
      let isNew := !disk.exists? ⟨target⟩
      match disk.write ⟨target⟩ content with
      | (.ok (), disk) => if isNew then disk.setExecutable ⟨target⟩ executable else (.ok (), disk)
      | failed => failed
  | .ok _ => (.error .isDirectory, disk)

def graft (tree : FileTree) (source target : RealPath) : FileTree :=
  (tree.below source).foldl (fun grown entry => grown.put (target ++ entry.1) entry.2) tree

def copyTree (disk : Disk) (source target : String) : DiskResult Unit :=
  match disk.locate false ⟨source⟩ with
  | .ok (.present place .directory) =>
      match disk.makeDirIfMissing ⟨target⟩ with
      | (.ok (), made) =>
          match made.stat ⟨target⟩ with
          | .ok (goal, _) => (.ok (), made.withTree (graft made.tree place goal))
          | .error cause => (.error cause, made)
      | failed => failed
  | .ok (.present _ (.link text)) => disk.makeLink text ⟨target⟩
  | .ok (.present _ _) => copyFile disk source target
  | .ok (.vacant _ _) => (.error .notFound, disk)
  | .error cause => (.error cause, disk)

def copyOne (options : List Char) (target : String) (disk : Disk) (source : String) : Effect :=
  let goal := destination disk source target
  if options.contains 'r' || options.contains 'R' || options.contains 'a' then
    Effect.ofResult (copyTree disk source goal) (about "cp" "cannot copy" source)
  else if disk.isDirectory ⟨source⟩ then
    Effect.failing disk ("cp: -r not specified; omitting directory " ++ inQuotes source) 1
  else if disk.exists? ⟨source⟩ then
    Effect.ofResult (copyFile disk source goal) (about "cp" "cannot create regular file" goal)
  else Effect.failing disk (about "cp" "cannot stat" source .notFound) 1

def moveOne (target : String) (disk : Disk) (source : String) : Effect :=
  let goal := destination disk source target
  match copyTree disk source goal with
  | (.ok (), disk) => removeOne ['r'] disk source
  | (.error cause, disk) => Effect.failing disk (about "mv" "cannot move" source cause) 1

def toLast (tool : String) (deed : List Char → String → Disk → String → Effect) : Utility :=
  fun disk _ arguments =>
    let (options, operands) := splitOptions arguments
    match operands.reverse with
    | target :: source :: others =>
        Effect.each disk (deed options target) (others.reverse ++ [source])
    | _ => Effect.failing disk (tool ++ ": missing file operand") 1

def linkOne (options : List Char) (target : String) (disk : Disk) (source : String) : Effect :=
  let goal := destination disk source target
  let cleared := if options.contains 'f' then (disk.removeFile ⟨goal⟩).2 else disk
  if options.contains 's' then
    Effect.ofResult (cleared.makeLink source ⟨goal⟩)
      (about "ln" "failed to create symbolic link" goal)
  else Effect.ofResult (copyFile cleared source goal) (about "ln" "failed to access" source)

/-- Whether a mode lets a file be run; there is no answer where the mode leaves that as it is. -/
def modeAllows (mode : String) : Option Bool :=
  let letters := mode.toList
  if letters.all Char.isDigit then some (letters.any fun digit => digit.toNat % 2 == 1)
  else if letters.contains 'x' then some (!letters.contains '-')
  else none

def changeMode : Utility := fun disk _ arguments =>
  match arguments with
  | mode :: operands =>
      Effect.each disk (fun disk path =>
        match modeAllows mode with
        | some allowed =>
            Effect.ofResult (disk.setExecutable ⟨path⟩ allowed) (about "chmod" "cannot access" path)
        | none => Effect.quiet disk) operands
  | [] => Effect.failing disk "chmod: missing operand" 1

/-! ## Showing what is there -/

def isShown (options : List Char) (name : String) : Bool :=
  options.contains 'a' || options.contains 'A' || name.toList.head? != some '.'

def entriesOf (options : List Char) (disk : Disk) (path : String) : Effect :=
  match disk.list ⟨path⟩ with
  | .ok names =>
      let own := if options.contains 'a' then [".", ".."] else []
      Effect.lines disk (own ++ names.filter (isShown options))
  | .error .notDirectory => Effect.lines disk [path]
  | .error cause => Effect.failing disk (about "ls" "cannot access" path cause) 2

/-- Files come before directories, and each directory under its name where there are more. -/
def listing : Utility := fun disk _ arguments =>
  let (options, operands) := splitOptions arguments
  match operands with
  | [] => entriesOf options disk "."
  | [path] => if options.contains 'd' then Effect.lines disk [path] else entriesOf options disk path
  | paths =>
      let (directories, files) := paths.partition fun path => disk.isDirectory ⟨path⟩
      (Effect.each disk (entriesOf options) files).andThen fun disk =>
        Effect.each disk (fun disk path =>
          (Effect.lines disk [path ++ ":"]).andThen fun disk => entriesOf options disk path)
          directories

structure Search where
  pattern : Option Pattern
  kind : Option Char

def patternOf (text : String) : Pattern :=
  text.toList.map fun c =>
    if c = '*' then .anyText else if c = '?' then .anyChar else .char c

def searchOf : Search → List String → Search
  | search, "-name" :: pattern :: rest =>
      searchOf { search with pattern := some (patternOf pattern) } rest
  | search, "-type" :: kind :: rest => searchOf { search with kind := kind.toList.head? } rest
  | search, _ :: rest => searchOf search rest
  | search, [] => search

def isOfKind (node : Node) (kind : Char) : Bool :=
  match node with
  | .directory => kind == 'd'
  | .file _ _ => kind == 'f'
  | .link _ => kind == 'l'

def admits (search : Search) (name : String) (node : Node) : Bool :=
  search.pattern.all (fun pattern => Pattern.accepts pattern name.toList) &&
    search.kind.all (isOfKind node)

def precedes (first second : RealPath × Node) : Bool := !decide (second.1 < first.1)

def found (search : Search) (start : String) (entries : List (RealPath × Node)) : List String :=
  let shown := (entries.mergeSort precedes).filter fun entry =>
    admits search (entry.1.getLast?.getD (TextUtility.nameOf start)) entry.2
  shown.map fun entry =>
    if entry.1.isEmpty then start else withSeparator start ++ joinWith "/" entry.1

def findFrom (search : Search) (disk : Disk) (start : String) : Effect :=
  match disk.locate false ⟨start⟩ with
  | .ok (.present place node) =>
      Effect.lines disk (found search start (([], node) :: disk.tree.below place))
  | .ok (.vacant _ _) =>
      Effect.failing disk ("find: " ++ inQuotes start ++ ": " ++ IoCause.notFound.text) 1
  | .error cause => Effect.failing disk ("find: " ++ inQuotes start ++ ": " ++ cause.text) 1

def find : Utility := fun disk _ arguments =>
  let isStart := fun (argument : String) => argument.toList.head? != some '-'
  let starts := arguments.takeWhile isStart
  let search := searchOf ⟨none, none⟩ (arguments.dropWhile isStart)
  Effect.each disk (findFrom search) (if starts.isEmpty then ["."] else starts)

end PlatformBundle.Shell.FileUtility
