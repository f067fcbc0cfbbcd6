import PlatformBundle.Shell.Command
import PlatformBundle.Shell.Pattern
import PlatformBundle.Shell.Session
import PlatformBundle.Shell.Sum
import PlatformBundle.Text.Utf8
/-!
From words to fields. The characters that a word expands to remember where they come from: only
those that come from an expansion outside quotes are looked at for blanks, and only those outside
quotes can be pattern characters. Scripts inside words are run by `capture`, which gives what they
print.
-/

namespace PlatformBundle.Shell

inductive Grain where
  | quoted (c : Char)
  | plain (c : Char)
  | expanded (c : Char)
  /-- There is a field here, even if it has no characters. -/
  | mark
  /-- A field ends here. -/
  | cut
  deriving DecidableEq

namespace Grain

def isBlank (c : Char) : Bool := c == ' ' || c == '\t' || c == '\n'

def ends : Grain → Bool
  | .cut => true
  | .expanded c => isBlank c
  | _ => false

def char? : Grain → Option Char
  | .quoted c | .plain c | .expanded c => some c
  | _ => none

def text (grains : List Grain) : String := String.ofList (grains.filterMap char?)

def active : Char → PatternItem
  | '*' => .anyText
  | '?' => .anyChar
  | c => .char c

def item? : Grain → Option PatternItem
  | .quoted c => some (.char c)
  | .plain c | .expanded c => some (active c)
  | _ => none

def pattern (grains : List Grain) : Pattern := grains.filterMap item?

/-- The fields of what follows, given the characters of the field that is under way. -/
def fieldsFrom : Option (List Grain) → List Grain → List (List Grain)
  | none, [] => []
  | some field, [] => [field.reverse]
  | none, grain :: rest =>
      if grain.ends then fieldsFrom none rest else fieldsFrom (some [grain]) rest
  | some field, grain :: rest =>
      if grain.ends then field.reverse :: fieldsFrom none rest
      else fieldsFrom (some (grain :: field)) rest

def fields (grains : List Grain) : List (List Grain) := fieldsFrom none grains

def ofText (quoted : Bool) (text : String) : List Grain :=
  if quoted then .mark :: text.toList.map .quoted else text.toList.map .expanded

def ofArguments (quoted : Bool) : List String → List Grain
  | [] => []
  | [argument] => ofText quoted argument
  | argument :: next :: others =>
      ofText quoted argument ++ .cut :: ofArguments quoted (next :: others)

end Grain

namespace Expansion

abbrev Capture := List Char → Session → List UInt8 × Session

def integerOf (text : String) : Int := text.toInt?.getD 0

def dropNewlines (text : List Char) : List Char := (text.reverse.dropWhile (· == '\n')).reverse

def ofPart (capture : Capture) (session : Session) : Part → List Grain × Session
  | .text chars true => (Grain.ofText true (String.ofList chars), session)
  | .text chars false => (chars.map Grain.plain, session)
  | .parameter name quoted =>
      if name = "@" || (name = "*" && !quoted) then
        (Grain.ofArguments quoted session.arguments, session)
      else (Grain.ofText quoted (session.value name), session)
  | .output script quoted =>
      let (bytes, session) := capture script session
      (Grain.ofText quoted (String.ofList (dropNewlines (Text.decodeLossy bytes))), session)
  | .sum expression quoted =>
      let value := Sum.evaluate (fun name => integerOf (session.value name)) expression
      (Grain.ofText quoted (toString (value.getD 0)), session)

def ofWord (capture : Capture) : Session → Word → List Grain × Session
  | session, [] => ([], session)
  | session, part :: rest =>
      let (first, session) := ofPart capture session part
      let (others, session) := ofWord capture session rest
      (first ++ others, session)

def text (capture : Capture) (session : Session) (word : Word) : String × Session :=
  let (grains, session) := ofWord capture session word
  (Grain.text grains, session)

/-- A field as the paths that it matches, or as it is where it is no pattern or matches none. -/
def pathsOf (disk : Disk) (field : List Grain) : List String :=
  if (Grain.pattern field).any Pattern.isActive then
    match Pattern.expand disk (Grain.pattern field) with
    | [] => [Grain.text field]
    | found => found
  else [Grain.text field]

def fields (capture : Capture) : Session → List Word → List String × Session
  | session, [] => ([], session)
  | session, word :: rest =>
      let (grains, session) := ofWord capture session word
      let found := (Grain.fields grains).flatMap (pathsOf session.disk)
      let (others, session) := fields capture session rest
      (found ++ others, session)

def assignments (capture : Capture) :
    Session → List (String × Word) → List (String × String) × Session
  | session, [] => ([], session)
  | session, (name, word) :: rest =>
      let (value, session) := text capture session word
      let (others, session) := assignments capture session rest
      ((name, value) :: others, session)

end Expansion

end PlatformBundle.Shell
