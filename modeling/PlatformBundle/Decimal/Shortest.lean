/-!
The shortest decimal that reads back as a given double. A finite double is `m * 2^q`, and the reals
that round to it form an interval around it, whose ends belong to it when `m` is even. For one
digit, two digits and so on up to seventeen, the two neighbours of the value on that decimal grid
are tried in exact arithmetic; the first grid with a neighbour in the interval wins, and of two
neighbours the nearer.
-/

namespace PlatformBundle.Decimal

structure Ratio where
  num : Nat
  den : Nat

/-- The digits of a decimal, the first of them standing for `10 ^ exponent`. -/
structure Digits where
  digits : List Nat
  exponent : Int
  deriving DecidableEq

def mantissaLimit : Nat := Nat.pow 2 52

def fractionOf (bits : UInt64) : Nat := bits.toNat % mantissaLimit

def exponentField (bits : UInt64) : Nat := bits.toNat / mantissaLimit % 2048

def isNegative (bits : UInt64) : Bool := Nat.pow 2 63 ≤ bits.toNat

def isZero (bits : UInt64) : Bool := fractionOf bits == 0 && exponentField bits == 0

def mantissa (bits : UInt64) : Nat :=
  if exponentField bits = 0 then fractionOf bits else fractionOf bits + mantissaLimit

def binaryExponent (bits : UInt64) : Int :=
  if exponentField bits = 0 then -1074 else (exponentField bits : Int) - 1075

-- `n * 2^e`
def scaleTwo (n : Nat) (e : Int) : Ratio :=
  if 0 ≤ e then ⟨n * Nat.pow 2 e.toNat, 1⟩ else ⟨n, Nat.pow 2 (-e).toNat⟩

-- `r / 10^e`
def Ratio.overTen (r : Ratio) (e : Int) : Ratio :=
  if 0 ≤ e then ⟨r.num, r.den * Nat.pow 10 e.toNat⟩ else ⟨r.num * Nat.pow 10 (-e).toNat, r.den⟩

def Ratio.less (a b : Ratio) : Bool := a.num * b.den < b.num * a.den

def decimalLength (n : Nat) : Nat := (Nat.toDigits 10 n).length

/-- The exponent of the first decimal digit of a positive fraction. -/
def Ratio.leadExponent (r : Ratio) : Int :=
  if r.den ≤ r.num then (decimalLength (r.num / r.den) : Int) - 1
  else
    let zeros := decimalLength (r.den / r.num) - 1
    if r.den ≤ r.num * Nat.pow 10 zeros then -(zeros : Int) else -(zeros : Int) - 1

/-- The reals that round to a double, and the double itself. -/
structure Interval where
  low : Ratio
  value : Ratio
  high : Ratio
  closed : Bool

-- Everything is counted in quarters of the last place; below a power of two the gap is half as
-- wide.
def intervalOf (bits : UInt64) : Interval :=
  let m := mantissa bits
  let q := binaryExponent bits - 2
  let below := if fractionOf bits = 0 && 1 < exponentField bits then 1 else 2
  { low := scaleTwo (4 * m - below) q
    value := scaleTwo (4 * m) q
    high := scaleTwo (4 * m + 2) q
    closed := m % 2 == 0 }

def Interval.holds (interval : Interval) (r : Ratio) : Bool :=
  if interval.closed then !r.less interval.low && !interval.high.less r
  else interval.low.less r && r.less interval.high

/-- The neighbour of the value on the grid of multiples of `10^e` that lies in the interval. -/
def Interval.onGrid (interval : Interval) (e : Int) : Option Nat :=
  let scaled := interval.value.overTen e
  let lower := scaled.num / scaled.den
  let grid := fun (n : Nat) => (Ratio.mk n 1).overTen (-e)
  let lowerHits := 0 < lower && interval.holds (grid lower)
  let upperHits := interval.holds (grid (lower + 1))
  if lowerHits && upperHits then
    let twice := 2 * (scaled.num % scaled.den)
    if twice < scaled.den || (twice == scaled.den && lower % 2 == 0) then some lower
    else some (lower + 1)
  else if lowerHits then some lower
  else if upperHits then some (lower + 1)
  else none

def digitsOf (n : Nat) : List Nat := (Nat.toDigits 10 n).map (fun c => c.toNat - 48)

def dropEndZeros (digits : List Nat) : List Nat := (digits.reverse.dropWhile (· == 0)).reverse

-- Tries grids of `count` and more digits, `left` of them at most.
def search (interval : Interval) (lead : Int) (count : Nat) : Nat → Digits
  | 0 => ⟨[], 0⟩
  | left + 1 =>
      let e := lead - (count : Int) + 1
      match interval.onGrid e with
      | some n =>
          let digits := digitsOf n
          ⟨dropEndZeros digits, e + (digits.length : Int) - 1⟩
      | none => search interval lead (count + 1) left

/-- The shortest digits of a finite double other than zero, its sign left out. -/
def shortest (bits : UInt64) : Digits :=
  let interval := intervalOf bits
  search interval interval.value.leadExponent 1 17

end PlatformBundle.Decimal
