import PlatformBundle.Text.Blank
import PlatformBundle.Text.Pieces
/-!
Semantic versions and version constraints. A version is three numbers, then perhaps a pre-release
after `-` and a build after `+`, both made of non-empty dotted parts. Numbers have no leading zero
and stay below 2^64. Reading is strict: text that is no version is left alone by the normalisation
of a constraint, which puts a caret before an exact version.
-/

namespace PlatformBundle

structure Version where
  major : Nat
  minor : Nat
  patch : Nat
  pre : List (List Char)
  build : List (List Char)
  deriving DecidableEq

namespace Version

open Text

def fieldLimit : Nat := Nat.pow 2 64

def digitValue (c : Char) : Nat := c.toNat - 48

def decimalValue (digits : List Char) : Nat :=
  digits.foldl (fun value c => value * 10 + digitValue c) 0

def hasLeadingZero (digits : List Char) : Bool :=
  1 < digits.length && digits.head? == some '0'

def takeNumber (text : List Char) : Option (Nat × List Char) :=
  let digits := text.takeWhile Char.isDigit
  if digits.isEmpty || hasLeadingZero digits then none
  else
    let value := decimalValue digits
    if value < fieldLimit then some (value, text.dropWhile Char.isDigit) else none

def takeDot : List Char → Option (List Char)
  | '.' :: rest => some rest
  | _ => none

def isPartChar (c : Char) : Bool := c.isAlphanum || c == '-'

def isBuildPart (part : List Char) : Bool := !part.isEmpty && part.all isPartChar

def isPrePart (part : List Char) : Bool :=
  isBuildPart part && !(part.all Char.isDigit && hasLeadingZero part)

/-- The dotted parts that follow `mark`, or none when the text does not begin with `mark`. -/
def takeParts (mark : Char) (isPart : List Char → Bool) :
    List Char → Option (List (List Char) × List Char)
  | [] => some ([], [])
  | c :: rest =>
      if c = mark then
        let inParts := fun c => isPartChar c || c == '.'
        let parts := pieces '.' (rest.takeWhile inParts)
        if parts.all isPart then some (parts, rest.dropWhile inParts) else none
      else some ([], c :: rest)

def parse (text : List Char) : Option Version := do
  let (major, rest) ← takeNumber text
  let rest ← takeDot rest
  let (minor, rest) ← takeNumber rest
  let rest ← takeDot rest
  let (patch, rest) ← takeNumber rest
  let (pre, rest) ← takeParts '-' isPrePart rest
  let (build, rest) ← takeParts '+' isBuildPart rest
  if rest.isEmpty then some { major, minor, patch, pre, build } else none

def decimal (n : Nat) : List Char := Nat.toDigits 10 n

def partsText (mark : Char) (parts : List (List Char)) : List Char :=
  if parts.isEmpty then [] else mark :: glue '.' parts

def text (version : Version) : List Char :=
  decimal version.major ++ '.' :: decimal version.minor ++ '.' :: decimal version.patch ++
    partsText '-' version.pre ++ partsText '+' version.build

end Version

namespace Constraint

def withoutMark : List Char → List Char
  | 'v' :: rest => rest
  | text => text

/-- An exact version becomes a caret range; every other constraint only loses outer blanks. -/
def normalize (constraint : String) : String :=
  let trimmed := Text.trim constraint.toList
  match Version.parse (withoutMark trimmed) with
  | some version => String.ofList ('^' :: version.text)
  | none => String.ofList trimmed

end Constraint

end PlatformBundle
