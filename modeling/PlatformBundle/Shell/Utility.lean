import PlatformBundle.Shell.FileUtility
import PlatformBundle.Shell.Format
import PlatformBundle.Shell.TextUtility
/-!
The utilities by their names.
-/

namespace PlatformBundle.Shell.Utility

def status (status : Nat) : Utility := fun disk _ _ => Effect.withStatus disk status

def echo : Utility := fun disk _ arguments => Effect.printing disk (Format.echo arguments)

def formatted : Utility := fun disk _ arguments =>
  match arguments with
  | "--" :: format :: rest => Effect.printing disk (Format.render format rest)
  | format :: rest => Effect.printing disk (Format.render format rest)
  | [] => Effect.failing disk "printf: usage: printf format [arg ...]" 2

def named (name : String) : Option Utility :=
  match name with
  | "true" | ":" => some (status 0)
  | "false" => some (status 1)
  | "sleep" | "sync" => some (status 0)
  | "echo" => some echo
  | "printf" => some formatted
  | "test" => some TextUtility.test
  | "[" => some TextUtility.bracketed
  | "pwd" => some TextUtility.workdir
  | "seq" => some TextUtility.numbers
  | "dirname" => some TextUtility.directory
  | "basename" => some TextUtility.name
  | "cat" => some TextUtility.concatenate
  | "head" => some (TextUtility.selected "head" List.take)
  | "tail" => some (TextUtility.selected "tail" Text.lastOf)
  | "wc" => some TextUtility.count
  | "sort" => some TextUtility.sorted
  | "tr" => some TextUtility.transliterated
  | "mkdir" => some FileUtility.makeDirs
  | "rmdir" => some FileUtility.removeDirs
  | "rm" => some FileUtility.remove
  | "touch" => some FileUtility.touch
  | "cp" => some (FileUtility.toLast "cp" FileUtility.copyOne)
  | "mv" => some (FileUtility.toLast "mv" fun _ => FileUtility.moveOne)
  | "ln" => some (FileUtility.toLast "ln" FileUtility.linkOne)
  | "chmod" => some FileUtility.changeMode
  | "ls" => some FileUtility.listing
  | "find" => some FileUtility.find
  | _ => none

/-- Whether a utility reads what is on its input, rather than files that it is told to read. -/
def readsInput (name : String) (arguments : List String) : Bool :=
  let operands := match name with
    | "cat" | "wc" | "sort" => some (splitOptions arguments).2
    | "head" | "tail" =>
        some ((TextUtility.byteCount? arguments).getD (TextUtility.countAndOperands arguments)).2
    | "tr" => some []
    | _ => none
  operands.any fun operands => operands.isEmpty || operands.contains "-"

end PlatformBundle.Shell.Utility
