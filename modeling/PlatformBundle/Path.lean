import PlatformBundle.Text.Pieces
/-!
Paths as they are written. A path keeps its text, because messages show it; what it names is
decided by its components, so `a//b` and `a/b` are the same path with two texts. `..` is a
component like any other here: only a disk knows where it leads. `absolutize` is the exception, it
removes `.` and `..` by looking at the text alone.
-/

namespace PlatformBundle

/-- The place of a directory or file on a disk: the names from the root down to it. -/
abbrev RealPath := List String

structure Path where
  text : String
  deriving DecidableEq, Inhabited

namespace Path

open Text

inductive Component where
  | root
  | here
  | up
  | name (text : String)
  deriving DecidableEq

def isAbsolute (path : Path) : Bool := path.text.toList.head? == some '/'

/-- An absolute right side replaces the left side. -/
def join (base : Path) (more : String) : Path :=
  if more.toList.head? == some '/' then ⟨more⟩
  else if base.text.toList.getLast? == some '/' || base.text.isEmpty then ⟨base.text ++ more⟩
  else ⟨base.text ++ "/" ++ more⟩

instance : HDiv Path String Path := ⟨join⟩

-- Empty pieces and `.` name nothing.
def silent (piece : List Char) : Bool := piece == [] || piece == ['.']

def bodyComponent (piece : List Char) : Option Component :=
  if silent piece then none
  else if piece = ['.', '.'] then some .up
  else some (.name (String.ofList piece))

def leadComponent (piece : List Char) : Option Component :=
  if piece = ['.'] then some .here else bodyComponent piece

def components (path : Path) : List Component :=
  match pieces '/' path.text.toList with
  | [] => []
  | first :: rest =>
      (if path.isAbsolute then [.root] else (leadComponent first).toList) ++
        rest.filterMap bodyComponent

def sameAs (first second : Path) : Bool := first.components == second.components

/-- The path without its last component; its text is the front part of the path's text. -/
def parent (path : Path) : Option Path :=
  match pieces '/' path.text.toList with
  | [] => none
  | first :: rest =>
      match rest.reverse.dropWhile silent with
      | [] => if first.isEmpty then none else some ⟨""⟩
      | _ :: above =>
          match above.dropWhile silent with
          | [] => some ⟨if first.isEmpty then "/" else String.ofList first⟩
          | kept => some ⟨String.ofList (glue '/' (first :: kept.reverse))⟩

def ofReal (real : RealPath) : Path := ⟨"/" ++ joinWith "/" real⟩

def resolveFrom (start : RealPath) : List Component → RealPath
  | [] => start
  | .root :: rest => resolveFrom [] rest
  | .here :: rest => resolveFrom start rest
  | .up :: rest => resolveFrom start.dropLast rest
  | .name text :: rest => resolveFrom (start ++ [text]) rest

/-- The names a path spells when it starts from `workdir` and no link is met. -/
def spelled (workdir : RealPath) (path : Path) : RealPath := resolveFrom workdir path.components

def absolutize (workdir : RealPath) (path : Path) : Path := ofReal (path.spelled workdir)

end Path

end PlatformBundle
