import PlatformBundle.Json.Value
/-!
The value of a number as it is written. A number without point and exponent is an integer as long
as it fits 64 bits. Every other number is a double: its digits are taken into a 64-bit significand
until the next digit does not fit, and the significand is then scaled once by a power of ten. The
result may be one unit in the last place off the nearest double. A number that would be infinite
has no value.
-/

namespace PlatformBundle.Json

/-- The parts of a written number; the fraction is empty when there is no point. -/
structure NumberText where
  negative : Bool
  whole : List Nat
  fraction : List Nat
  exponent : Option (Bool × List Nat)
  deriving DecidableEq

def significandLimit : Nat := Nat.pow 2 64

def digitsValue (digits : List Nat) : Nat := digits.foldl (fun value d => value * 10 + d) 0

/-- Takes digits into a significand while they fit, and counts the digits left out. -/
def absorb : Nat → List Nat → Nat × Nat
  | value, [] => (value, 0)
  | value, d :: rest =>
      if value * 10 + d < significandLimit then absorb (value * 10 + d) rest
      else (value, rest.length + 1)

/-- The largest power of ten that a double holds is `10 ^ 308`. -/
def greatestPower : Nat := 308

def powerOfTen (n : Nat) : Float := Float.ofScientific 1 false n

-- Dividing by the greatest power again and again ends at zero long before the exponent is used up.
def scaleDown (value : Float) (exponent : Nat) : Float :=
  if exponent ≤ greatestPower then value / powerOfTen exponent
  else if value == 0.0 then value
  else scaleDown (value / powerOfTen greatestPower) (exponent - greatestPower)
  termination_by exponent
  decreasing_by simp only [greatestPower] at *; omega

def scaleUp (value : Float) (exponent : Nat) : Option Float :=
  if exponent ≤ greatestPower then
    let scaled := value * powerOfTen exponent
    if scaled.isInf then none else some scaled
  else if value == 0.0 then some value
  else none

def scaled (significand : Nat) (exponent : Int) : Option Float :=
  let value := (UInt64.ofNat significand).toFloat
  match exponent with
  | .ofNat n => scaleUp value n
  | .negSucc n => some (scaleDown value (n + 1))

def greatestExponent : Nat := Nat.pow 2 31 - 1

/-- An exponent past the greatest one is an error for a large number and gives zero otherwise. -/
def withExponent (significand : Nat) (start : Int) : Option (Bool × List Nat) → Option Float
  | none => scaled significand start
  | some (negative, digits) =>
      let exponent := digitsValue digits
      if greatestExponent < exponent then
        if significand ≠ 0 && !negative then none else some 0.0
      else scaled significand (if negative then start - exponent else start + exponent)

def doubleOf (text : NumberText) : Option JsonNumber := do
  let (whole, left) := absorb 0 text.whole
  let (significand, ignored) := absorb whole text.fraction
  let start := (left : Int) - ((text.fraction.length - ignored : Nat) : Int)
  let value ← withExponent significand start text.exponent
  some (.double (if text.negative then -value else value).toBits)

def NumberText.value? (text : NumberText) : Option JsonNumber :=
  let value := digitsValue text.whole
  let fits := if text.negative then value ≠ 0 ∧ value ≤ Nat.pow 2 63 else value < significandLimit
  if text.fraction = [] ∧ text.exponent = none ∧ fits then
    some (.integer (if text.negative then -(value : Int) else value))
  else doubleOf text

end PlatformBundle.Json
