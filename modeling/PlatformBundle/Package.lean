import PlatformBundle.Fault
/-!
Packages and the names of their staging directories. A package name is one part, or an author and
a part with `:` between them, where a part is a non-empty run of lower-case letters, digits, `.`
and `-`. The staging name writes `_` for the `:`; since no part holds an `_`, the identity can be
read back from it.
-/

namespace PlatformBundle

inductive PackageId where
  | application
  | package (name : String)
  deriving DecidableEq

/-- The directory and module name of a package inside a staging root. -/
structure StagingName where
  text : String
  deriving DecidableEq

def applicationName : String := "__app__"

def replaceChar (old new : Char) (text : String) : String :=
  String.ofList (text.toList.map (fun c => if c = old then new else c))

namespace PackageId

def isNameChar (c : Char) : Bool :=
  ('a' ≤ c && c ≤ 'z') || ('0' ≤ c && c ≤ '9') || c == '.' || c == '-'

inductive NameFlaw where
  | empty
  | severalColons
  | emptyPart
  | badCharacter (c : Char)
  deriving DecidableEq

def NameFlaw.reason : NameFlaw → String
  | .empty => "name is empty"
  | .severalColons => "at most one `:` is allowed"
  | .emptyPart => "author prefix and name must both be non-empty"
  | .badCharacter c => "character `" ++ c.toString ++ "` is not allowed"

def flaw (name : List Char) : Option NameFlaw :=
  if name.isEmpty then some .empty
  else if 1 < name.count ':' then some .severalColons
  else if name.head? == some ':' || name.getLast? == some ':' then some .emptyPart
  else (name.find? (fun c => !(isNameChar c || c == ':'))).map .badCharacter

def parse (name : String) : Except Fault PackageId :=
  match flaw name.toList with
  | none => .ok (.package name)
  | some flaw => .error (.invalidPackageName name flaw.reason)

def name : PackageId → Option String
  | .application => none
  | .package name => some name

def isApplication : PackageId → Bool
  | .application => true
  | .package _ => false

def nameOrEmpty (id : PackageId) : String := id.name.getD ""

def stagingName : PackageId → StagingName
  | .application => ⟨applicationName⟩
  | .package name => ⟨replaceChar ':' '_' name⟩

def display : PackageId → String
  | .application => applicationName
  | .package name => name

/-- The application comes first, then the packages by name. -/
def precedes : PackageId → PackageId → Bool
  | .application, .application => false
  | .application, .package _ => true
  | .package _, .application => false
  | .package first, .package second => first < second

end PackageId

namespace StagingName

def toIdentity (staging : StagingName) : Except Fault PackageId :=
  if staging.text = applicationName then .ok .application
  else PackageId.parse (replaceChar '_' ':' staging.text)

def parse (text : String) : Except Fault StagingName := do
  let _ ← toIdentity ⟨text⟩
  .ok ⟨text⟩

end StagingName

end PlatformBundle
