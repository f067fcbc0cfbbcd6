import PlatformBundle.Disk.Cause
import PlatformBundle.Disk.Tree
/-!
Finding what a path names on a disk. The names of a path are walked from a directory; `..` leads to
the directory above the one reached so far, and a link puts the names of its target in front of
what is left to walk. At most `linkBudget` links are followed.
-/

namespace PlatformBundle

/-- A file tree and the directory that relative paths start from. -/
structure Disk where
  tree : FileTree
  workdir : RealPath

namespace Disk

open Text

def linkBudget : Nat := 40

def longestName : Nat := 255

def longestPath : Nat := 4095

/-- What a walk ends at: something that is there, or a free name in a directory that is there. -/
inductive Place where
  | present (place : RealPath) (node : Node)
  | vacant (directory : RealPath) (name : String)

/-- The names of a path text; one that ends in a separator has a last name `.`. -/
def stepsOf (text : String) : List String :=
  let names := (pieces '/' text.toList).filter (fun piece => !piece.isEmpty)
  names.map String.ofList ++
    (if names ≠ [] && text.toList.getLast? == some '/' then ["."] else [])

def startOf (directory : RealPath) (text : String) : RealPath :=
  if text.toList.head? == some '/' then [] else directory

/-- Walks names down to the end or to the first link that is followed; `onward` goes on from it. -/
def walkNames (tree : FileTree) (follow : Bool)
    (onward : RealPath → List String → Except IoCause Place) :
    RealPath → List String → Except IoCause Place
  | directory, [] => .ok (.present directory .directory)
  | directory, name :: rest =>
      if name = "." then walkNames tree follow onward directory rest
      else if name = ".." then walkNames tree follow onward directory.dropLast rest
      else if longestName < name.utf8ByteSize then .error .nameTooLong
      else
        let place := directory ++ [name]
        match tree.get? place with
        | none => if rest.isEmpty then .ok (.vacant directory name) else .error .notFound
        | some .directory => walkNames tree follow onward place rest
        | some (.file content executable) =>
            if rest.isEmpty then .ok (.present place (.file content executable))
            else .error .notDirectory
        | some (.link target) =>
            if rest.isEmpty && !follow then .ok (.present place (.link target))
            else onward (startOf directory target) (stepsOf target ++ rest)

-- Following a link uses up one of the budget.
def walk (tree : FileTree) (follow : Bool) :
    (budget : Nat) → RealPath → List String → Except IoCause Place
  | 0 => walkNames tree follow (fun _ _ => .error .tooManyLinks)
  | left + 1 => walkNames tree follow (walk tree follow left)

def checkText (text : String) : Except IoCause Unit :=
  if text.toList.contains '\x00' then .error .nulInName
  else if text.isEmpty then .error .notFound
  else if longestPath < text.utf8ByteSize then .error .nameTooLong
  else .ok ()

/-- What a path names; `follow` says whether a link at its end is followed. -/
def locate (disk : Disk) (follow : Bool) (path : Path) : Except IoCause Place := do
  checkText path.text
  walk disk.tree follow linkBudget (startOf disk.workdir path.text) (stepsOf path.text)

def stat (disk : Disk) (path : Path) : Except IoCause (RealPath × Node) := do
  match ← disk.locate true path with
  | .present place node => .ok (place, node)
  | .vacant _ _ => .error .notFound

def isDirectory (disk : Disk) (path : Path) : Bool :=
  match disk.stat path with
  | .ok (_, .directory) => true
  | _ => false

def isFile (disk : Disk) (path : Path) : Bool :=
  match disk.stat path with
  | .ok (_, .file _ _) => true
  | _ => false

def exists? (disk : Disk) (path : Path) : Bool :=
  match disk.stat path with
  | .ok _ => true
  | .error _ => false

structure Last where
  directory : RealPath
  name : String
  /-- The path text ends in a separator. -/
  slash : Bool

def locateLast (disk : Disk) (path : Path) : Except IoCause (Option Last) := do
  checkText path.text
  let names := (pieces '/' path.text.toList).filter (fun piece => !piece.isEmpty)
  match names.reverse with
  | [] => .ok none
  | last :: above =>
      let steps := above.reverse.map String.ofList
      match ← walk disk.tree true linkBudget (startOf disk.workdir path.text) steps with
      | .present directory .directory =>
          .ok (some ⟨directory, String.ofList last, path.text.toList.getLast? == some '/'⟩)
      | .present _ _ => .error .notDirectory
      | .vacant _ _ => .error .notFound

end Disk

end PlatformBundle
