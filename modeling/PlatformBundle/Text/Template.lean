/-!
Templates. A template is a text with slots in it, each a name in double braces. It is read once
from left to right, and what is put into a slot is not read again: braces in it are only text.
-/

namespace PlatformBundle.Text

/-- Fills the slots of a template; inside a slot, `name` is what has been read of its name. -/
def fillFrom (value : String → String) : (slot : Option (List Char)) → List Char → List Char
  | _, [] => []
  | none, '\x7b' :: '\x7b' :: rest => fillFrom value (some []) rest
  | none, c :: rest => c :: fillFrom value none rest
  | some name, '\x7d' :: '\x7d' :: rest =>
      (value (String.ofList name)).toList ++ fillFrom value none rest
  | some name, c :: rest => fillFrom value (some (name ++ [c])) rest

def fill (template : String) (value : String → String) : String :=
  String.ofList (fillFrom value none template.toList)

def setIn (margin : Nat) (text : List Char) : List Char :=
  text.flatMap (fun c => if c = '\n' then '\n' :: List.replicate margin ' ' else [c])

end PlatformBundle.Text
