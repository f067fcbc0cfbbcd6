import PlatformBundle.Disk.Operations
import PlatformBundle.Text.Utf8
/-!
Files that can be run: the shell itself, and scripts that name it in their first line.
-/

namespace PlatformBundle.Shell

def shellPlace : RealPath := ["bin", "sh"]

structure Invocation where
  script : List Char
  name : String
  arguments : List String

namespace Invocation

def interpreterOf (text : List Char) : Option Path :=
  match text with
  | '#' :: '!' :: rest =>
      let line := (rest.takeWhile (· != '\n')).dropWhile (fun c => c == ' ' || c == '\t')
      some ⟨String.ofList (line.takeWhile fun c => c != ' ' && c != '\t')⟩
  | _ => none

/-- The shell with arguments: a script, or a file that holds one, or nothing to do. -/
def ofShell (disk : Disk) (name : String) : List String → Except IoCause Invocation
  | "-c" :: script :: own :: arguments => .ok ⟨script.toList, own, arguments⟩
  | "-c" :: script :: [] => .ok ⟨script.toList, name, []⟩
  | path :: arguments => do
      let content ← disk.read ⟨path⟩
      .ok ⟨Text.decodeLossy content.data.toList, path, arguments⟩
  | [] => .ok ⟨[], name, []⟩

def ofScript (disk : Disk) (name : String) (text : List Char) (arguments : List String) :
    Except IoCause Invocation :=
  match interpreterOf text with
  | none => .error .execFormat
  | some interpreter => do
      let (place, _) ← disk.stat interpreter
      if place = shellPlace then .ok ⟨text, name, arguments⟩ else .error .execFormat

def ofFile (disk : Disk) (path : Path) (arguments : List String) : Except IoCause Invocation := do
  match ← disk.stat path with
  | (place, .file content true) =>
      if place = shellPlace then ofShell disk path.text arguments
      else ofScript disk path.text (Text.decodeLossy content.data.toList) arguments
  | _ => .error .permissionDenied

end Invocation

end PlatformBundle.Shell
