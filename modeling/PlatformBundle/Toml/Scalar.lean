import PlatformBundle.Text.Pieces
import PlatformBundle.Toml.Item
/-!
Bare values: truth values, numbers, dates and times. Underscores may stand between the digits of a
number. A date or a time has to exist in the calendar and on the clock, and is kept in its usual
form, with a `T` before the time and no zeros at the end of a fraction.
-/

namespace PlatformBundle.Toml

open Text

def hexDigit? (c : Char) : Option Nat :=
  if c.isDigit then some (c.toNat - 48)
  else if 'a' ≤ c ∧ c ≤ 'f' then some (c.toNat - 87)
  else if 'A' ≤ c ∧ c ≤ 'F' then some (c.toNat - 55)
  else none

/-- The digits of a number in some base; every underscore has a digit on both sides. -/
def digitsIn (base : Nat) (text : List Char) : Option (List Nat) := do
  let groups := pieces '_' text
  if groups.any List.isEmpty then none
  else groups.flatten.mapM (fun c => (hexDigit? c).filter (· < base))

def valueIn (base : Nat) (digits : List Nat) : Nat :=
  digits.foldl (fun value d => value * base + d) 0

def leadsWithZero (digits : List Nat) : Bool := 1 < digits.length && digits.head? == some 0

def plainDigits (text : List Char) : Option (List Nat) :=
  (digitsIn 10 text).filter (fun digits => !leadsWithZero digits)

def splitSign : List Char → Bool × List Char
  | '-' :: rest => (true, rest)
  | '+' :: rest => (false, rest)
  | text => (false, text)

def integer? (text : List Char) : Option Int :=
  match text with
  | '0' :: 'x' :: digits => (digitsIn 16 digits).map (fun ds => (valueIn 16 ds : Int))
  | '0' :: 'o' :: digits => (digitsIn 8 digits).map (fun ds => (valueIn 8 ds : Int))
  | '0' :: 'b' :: digits => (digitsIn 2 digits).map (fun ds => (valueIn 2 ds : Int))
  | _ =>
      let (negative, body) := splitSign text
      (plainDigits body).map (fun ds =>
        if negative then -(valueIn 10 ds : Int) else (valueIn 10 ds : Int))

/-- From here on a number is rounded to infinity: half a step above the greatest double. -/
def infiniteFrom : Nat := Nat.pow 2 1024 - Nat.pow 2 970

-- Far from the bound the count of digits decides, so that no great power is computed.
def isFinite (digits : List Nat) (exponent : Int) : Bool :=
  let significant := digits.dropWhile (· == 0)
  let lead : Int := significant.length + exponent
  if significant.isEmpty || lead < 300 then true
  else if 400 < lead then false
  else
    let value := valueIn 10 significant
    if 0 ≤ exponent then value * Nat.pow 10 exponent.toNat < infiniteFrom
    else value < infiniteFrom * Nat.pow 10 (-exponent).toNat

def exponent? (text : List Char) : Option Int :=
  let (negative, body) := splitSign text
  (digitsIn 10 body).map (fun ds =>
    if negative then -(valueIn 10 ds : Int) else (valueIn 10 ds : Int))

def isMark (c : Char) : Bool := c == 'e' || c == 'E'

/-- Tells of a float whether it is in range; not-a-number and the infinities are. -/
def float? (text : List Char) : Option Bool :=
  let body := (splitSign text).2
  if body = "inf".toList ∨ body = "nan".toList then some true
  else
    let mantissa := body.takeWhile (fun c => !isMark c)
    let power := (body.dropWhile (fun c => !isMark c)).drop 1
    let hasPower := mantissa.length < body.length
    match cutFirst '.' mantissa with
    | some (whole, fraction) => do
        let whole ← plainDigits whole
        let fraction ← digitsIn 10 fraction
        let power ← if hasPower then exponent? power else some 0
        some (isFinite (whole ++ fraction) (power - fraction.length))
    | none =>
        if hasPower then do
          let whole ← plainDigits mantissa
          some (isFinite whole (← exponent? power))
        else none

def takeDigits (count : Nat) (text : List Char) : Option (Nat × List Char) :=
  let digits := text.take count
  if digits.length = count && digits.all Char.isDigit then
    some (digits.foldl (fun value c => value * 10 + (c.toNat - 48)) 0, text.drop count)
  else none

def takeChar (c : Char) : List Char → Option (List Char)
  | [] => none
  | first :: rest => if first = c then some rest else none

def isLeapYear (year : Nat) : Bool := year % 4 == 0 && (year % 100 != 0 || year % 400 == 0)

def daysIn (year month : Nat) : Nat :=
  if month = 2 then (if isLeapYear year then 29 else 28)
  else if month = 4 ∨ month = 6 ∨ month = 9 ∨ month = 11 then 30
  else 31

def padded (width : Nat) (n : Nat) : List Char :=
  let digits := Nat.toDigits 10 n
  List.replicate (width - digits.length) '0' ++ digits

def takeDate (text : List Char) : Option (List Char × List Char) := do
  let (year, rest) ← takeDigits 4 text
  let (month, rest) ← takeDigits 2 (← takeChar '-' rest)
  let (day, rest) ← takeDigits 2 (← takeChar '-' rest)
  if 1 ≤ month && month ≤ 12 && 1 ≤ day && day ≤ daysIn year month then
    some (padded 4 year ++ '-' :: padded 2 month ++ '-' :: padded 2 day, rest)
  else none

/-- A fraction of a second, to nine digits, without the zeros at its end. -/
def fractionText (digits : List Char) : List Char :=
  let kept := ((digits.take 9).reverse.dropWhile (· == '0')).reverse
  if kept.isEmpty then ['0'] else kept

def takeFraction : List Char → Option (List Char × List Char)
  | '.' :: rest =>
      let digits := rest.takeWhile Char.isDigit
      if digits.isEmpty then none
      else some ('.' :: fractionText digits, rest.dropWhile Char.isDigit)
  | rest => some ([], rest)

def takeSeconds : List Char → Option (List Char × List Char)
  | ':' :: rest => do
      let (second, rest) ← takeDigits 2 rest
      let (fraction, rest) ← takeFraction rest
      if second ≤ 60 then some (':' :: padded 2 second ++ fraction, rest) else none
  | rest => some ([], rest)

def takeTime (text : List Char) : Option (List Char × List Char) := do
  let (hour, rest) ← takeDigits 2 text
  let (minute, rest) ← takeDigits 2 (← takeChar ':' rest)
  let (seconds, rest) ← takeSeconds rest
  if hour ≤ 23 && minute ≤ 59 then
    some (padded 2 hour ++ ':' :: padded 2 minute ++ seconds, rest)
  else none

def offset? (text : List Char) : Option (List Char) :=
  match text with
  | [] => some []
  | ['Z'] | ['z'] => some ['Z']
  | sign :: rest => do
      if sign ≠ '+' ∧ sign ≠ '-' then none
      else
        let (hours, rest) ← takeDigits 2 rest
        let (minutes, rest) ← takeDigits 2 (← takeChar ':' rest)
        if hours ≤ 23 && minutes ≤ 59 && rest.isEmpty then
          let shown := if hours = 0 ∧ minutes = 0 then '+' else sign
          some (shown :: padded 2 hours ++ ':' :: padded 2 minutes)
        else none

def isTimeMark (c : Char) : Bool := c == 'T' || c == 't' || c == ' '

def datetime? (text : List Char) : Option (List Char) :=
  match takeDate text with
  | some (date, []) => some date
  | some (date, mark :: rest) => do
      if !isTimeMark mark then none
      else
        let (time, rest) ← takeTime rest
        let offset ← offset? rest
        some (date ++ 'T' :: time ++ offset)
  | none =>
      match takeTime text with
      | some (time, []) => some time
      | _ => none

def scalar? (text : List Char) : Option Toml :=
  if text = "true".toList then some (.bool true)
  else if text = "false".toList then some (.bool false)
  else match datetime? text with
    | some date => some (.datetime (String.ofList date))
    | none => match integer? text with
      | some value => some (.integer value)
      | none => (float? text).map .float

end PlatformBundle.Toml
