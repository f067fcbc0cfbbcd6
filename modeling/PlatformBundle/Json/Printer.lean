import PlatformBundle.Decimal.Shortest
import PlatformBundle.Json.Value
import PlatformBundle.Text.Pieces
/-!
Writing JSON. There are two layouts: the compact one has no blanks, the wide one puts each item on
a line of its own, two blanks further in for each level. A quote, a backslash and the control
characters are escaped, every other character stands for itself, so no line break inside a string
is ever written as one.
-/

namespace PlatformBundle.Json

def lowerHex (n : Nat) : Char := if n < 10 then Char.ofNat (48 + n) else Char.ofNat (87 + n)

def escapeChar (c : Char) : List Char :=
  if c = '"' then ['\\', '"']
  else if c = '\\' then ['\\', '\\']
  else if c = '\n' then ['\\', 'n']
  else if c = '\r' then ['\\', 'r']
  else if c = '\t' then ['\\', 't']
  else if c = '\x08' then ['\\', 'b']
  else if c = '\x0c' then ['\\', 'f']
  else if c.toNat < 0x20 then
    ['\\', 'u', '0', '0', lowerHex (c.toNat / 16), lowerHex (c.toNat % 16)]
  else [c]

def quoted (text : String) : List Char := '"' :: (text.toList.flatMap escapeChar ++ ['"'])

structure DoubleLayout where
  leastPositional : Int
  greatestPositional : Int

/-- Doubles from 1e-5 up to below 1e16 are written without an exponent. -/
def doubleLayout : DoubleLayout := ⟨-5, 15⟩

def digitChars (digits : List Nat) : List Char := digits.map (fun d => Char.ofNat (48 + d))

def decimalText (value : Decimal.Digits) : List Char :=
  let digits := digitChars value.digits
  let e := value.exponent
  if 0 ≤ e && e ≤ doubleLayout.greatestPositional then
    let whole := e.toNat + 1
    if digits.length ≤ whole then
      digits ++ List.replicate (whole - digits.length) '0' ++ ['.', '0']
    else digits.take whole ++ '.' :: digits.drop whole
  else if e < 0 && doubleLayout.leastPositional ≤ e then
    ['0', '.'] ++ List.replicate ((-e).toNat - 1) '0' ++ digits
  else
    digits.take 1 ++ (if digits.length ≤ 1 then [] else '.' :: digits.drop 1) ++
      'e' :: (if e < 0 then '-' else '+') :: Nat.toDigits 10 e.natAbs

def doubleText (bits : UInt64) : List Char :=
  (if Decimal.isNegative bits then ['-'] else []) ++
    (if Decimal.isZero bits then ['0', '.', '0'] else decimalText (Decimal.shortest bits))

def integerText (value : Int) : List Char :=
  (if value < 0 then ['-'] else []) ++ Nat.toDigits 10 value.natAbs

def numberText : JsonNumber → List Char
  | .integer value => integerText value
  | .double bits => doubleText bits

def boolText (value : Bool) : List Char :=
  if value then ['t', 'r', 'u', 'e'] else ['f', 'a', 'l', 's', 'e']

mutual

def compact : Json → List Char
  | .null => ['n', 'u', 'l', 'l']
  | .bool value => boolText value
  | .number value => numberText value
  | .string text => quoted text
  | .array items => '[' :: (compactItems items ++ [']'])
  | .object members => '\x7b' :: (compactMembers members ++ ['\x7d'])

def compactItems : List Json → List Char
  | [] => []
  | [item] => compact item
  | item :: next :: others => compact item ++ ',' :: compactItems (next :: others)

def compactMembers : List (String × Json) → List Char
  | [] => []
  | [(key, item)] => quoted key ++ ':' :: compact item
  | (key, item) :: next :: others =>
      quoted key ++ ':' :: (compact item ++ ',' :: compactMembers (next :: others))

end

def lineBreak (indent : Nat) : List Char := '\n' :: List.replicate indent ' '

mutual

def wide (indent : Nat) : Json → List Char
  | .null => ['n', 'u', 'l', 'l']
  | .bool value => boolText value
  | .number value => numberText value
  | .string text => quoted text
  | .array [] => ['[', ']']
  | .array (item :: others) =>
      '[' :: (lineBreak (indent + 2) ++ wideItems (indent + 2) (item :: others) ++
        lineBreak indent ++ [']'])
  | .object [] => ['\x7b', '\x7d']
  | .object (member :: others) =>
      '\x7b' :: (lineBreak (indent + 2) ++ wideMembers (indent + 2) (member :: others) ++
        lineBreak indent ++ ['\x7d'])

def wideItems (indent : Nat) : List Json → List Char
  | [] => []
  | [item] => wide indent item
  | item :: next :: others =>
      wide indent item ++ ',' :: (lineBreak indent ++ wideItems indent (next :: others))

def wideMembers (indent : Nat) : List (String × Json) → List Char
  | [] => []
  | [(key, item)] => quoted key ++ ':' :: ' ' :: wide indent item
  | (key, item) :: next :: others =>
      quoted key ++ ':' :: ' ' :: (wide indent item ++
        ',' :: (lineBreak indent ++ wideMembers indent (next :: others)))

end

def compactText (value : Json) : String := String.ofList value.compact

/-- The wide layout; `margin` is what stands in front of every line but the first. -/
def wideText (value : Json) (margin : Nat) : String := String.ofList (value.wide margin)

end PlatformBundle.Json
