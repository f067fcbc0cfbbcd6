/-!
Formatted output. A format is a text with escapes and with places for arguments; it is used again
and again while there are arguments left. Octal escapes stand for bytes, so what is written need
not be text.
-/

namespace PlatformBundle.Shell

structure Conversion where
  zeros : Bool
  left : Bool
  width : Nat
  precision : Option Nat
  letter : Char
  deriving DecidableEq

inductive FormatItem where
  | bytes (bytes : List UInt8)
  | argument (conversion : Conversion)
  deriving DecidableEq

namespace Format

def bytesOf (chars : List Char) : List UInt8 := (String.ofList chars).toUTF8.data.toList

def octalDigit? (c : Char) : Option Nat :=
  if '0' ≤ c ∧ c ≤ '7' then some (c.toNat - 48) else none

def octal : Nat → Nat → List Char → UInt8 × List Char
  | 0, value, text => (UInt8.ofNat value, text)
  | _, value, [] => (UInt8.ofNat value, [])
  | count + 1, value, c :: rest =>
      match octalDigit? c with
      | some digit => octal count (8 * value + digit) rest
      | none => (UInt8.ofNat value, c :: rest)

def letterByte : Char → Option UInt8
  | 'a' => some 7
  | 'b' => some 8
  | 't' => some 9
  | 'n' => some 10
  | 'v' => some 11
  | 'f' => some 12
  | 'r' => some 13
  | '\\' => some 92
  | _ => none

def escape : List Char → List UInt8 × List Char
  | [] => ([92], [])
  | c :: rest =>
      match letterByte c, octalDigit? c with
      | some byte, _ => ([byte], rest)
      | none, some _ =>
          let (byte, rest) := octal 3 0 (c :: rest)
          ([byte], rest)
      | none, none => (92 :: bytesOf [c], rest)

/-- A text with its escapes replaced, up to an escape that ends all output. In an argument an octal
escape begins with a zero that does not count as a digit. -/
def argumentBytes : Nat → List Char → List UInt8 × Bool
  | 0, _ => ([], false)
  | _, [] => ([], false)
  | _ + 1, '\\' :: 'c' :: _ => ([], true)
  | fuel + 1, '\\' :: '0' :: rest =>
      let (byte, rest) := octal 3 0 rest
      let (others, stop) := argumentBytes fuel rest
      (byte :: others, stop)
  | fuel + 1, '\\' :: rest =>
      let (first, rest) := escape rest
      let (others, stop) := argumentBytes fuel rest
      (first ++ others, stop)
  | fuel + 1, c :: rest =>
      let (others, stop) := argumentBytes fuel rest
      (bytesOf [c] ++ others, stop)

def escaped (text : String) : List UInt8 × Bool :=
  argumentBytes (text.length + 1) text.toList

def isFlag (c : Char) : Bool := c == '-' || c == '0' || c == ' ' || c == '+' || c == '#'

def numberOf (digits : List Char) : Nat :=
  digits.foldl (fun value digit => 10 * value + (digit.toNat - 48)) 0

def conversion (text : List Char) : Option (Conversion × List Char) :=
  let (flags, text) := text.span isFlag
  let (width, text) := text.span Char.isDigit
  let (precision, text) := match text with
    | '.' :: rest =>
        let (digits, rest) := rest.span Char.isDigit
        (some (numberOf digits), rest)
    | _ => (none, text)
  match text with
  | letter :: rest =>
      some (⟨flags.contains '0', flags.contains '-', numberOf width, precision, letter⟩, rest)
  | [] => none

def items : Nat → List Char → List FormatItem
  | 0, _ => []
  | _, [] => []
  | fuel + 1, '\\' :: rest =>
      let (bytes, rest) := escape rest
      .bytes bytes :: items fuel rest
  | fuel + 1, '%' :: '%' :: rest => .bytes [37] :: items fuel rest
  | fuel + 1, '%' :: rest =>
      match conversion rest with
      | some (found, rest) => .argument found :: items fuel rest
      | none => [.bytes [37]]
  | fuel + 1, c :: rest => .bytes (bytesOf [c]) :: items fuel rest

def pad (shape : Conversion) (sign body : List UInt8) : List UInt8 :=
  let missing := shape.width - (sign.length + body.length)
  if shape.left then sign ++ body ++ List.replicate missing 32
  else if shape.zeros then sign ++ List.replicate missing 48 ++ body
  else List.replicate missing 32 ++ sign ++ body

def digits (base value : Nat) : List UInt8 := bytesOf (Nat.toDigits base value)

def magnitude (shape : Conversion) (base value : Nat) : List UInt8 :=
  let found := digits base value
  List.replicate (shape.precision.getD 0 - found.length) 48 ++ found

def argument (shape : Conversion) (text : String) : List UInt8 × Bool :=
  let value := text.toInt?.getD 0
  match shape.letter with
  | 'd' | 'i' | 'u' =>
      (pad shape (if value < 0 then [45] else []) (magnitude shape 10 value.natAbs), false)
  | 'x' => (pad shape [] (magnitude shape 16 value.natAbs), false)
  | 'o' => (pad shape [] (magnitude shape 8 value.natAbs), false)
  | 'c' => (pad shape [] ((bytesOf text.toList).take 1), false)
  | 'b' =>
      let (bytes, stop) := escaped text
      (pad { shape with zeros := false } [] bytes, stop)
  | _ =>
      let bytes := bytesOf text.toList
      let kept := match shape.precision with
        | some most => bytes.take most
        | none => bytes
      (pad { shape with zeros := false } [] kept, false)

def takesArgument : FormatItem → Bool
  | .argument _ => true
  | .bytes _ => false

def once : List FormatItem → List String → List UInt8 × List String × Bool
  | [], arguments => ([], arguments, false)
  | .bytes bytes :: rest, arguments =>
      let (others, left, stop) := once rest arguments
      (bytes ++ others, left, stop)
  | .argument shape :: rest, arguments =>
      let (bytes, stop) := argument shape (arguments.head?.getD "")
      if stop then (bytes, [], true)
      else
        let (others, left, stop) := once rest (arguments.drop 1)
        (bytes ++ others, left, stop)

def repeatedly (format : List FormatItem) : Nat → List String → List UInt8
  | 0, _ => []
  | rounds + 1, arguments =>
      let (bytes, left, stop) := once format arguments
      if stop || left.isEmpty || !format.any takesArgument then bytes
      else bytes ++ repeatedly format rounds left

def render (format : String) (arguments : List String) : List UInt8 :=
  repeatedly (items (format.length + 1) format.toList) (arguments.length + 1) arguments

def separated (arguments : List String) : String := String.intercalate " " arguments

/-- The arguments on one line, unless `-n` comes first or an escape ends the output before. -/
def echo (arguments : List String) : List UInt8 :=
  let (bare, arguments) := match arguments with
    | "-n" :: rest => (true, rest)
    | all => (false, all)
  let (bytes, stop) := escaped (separated arguments)
  if bare || stop then bytes else bytes ++ [10]

end Format

end PlatformBundle.Shell
