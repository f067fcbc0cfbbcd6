/-!
Sums: whole numbers, names of variables, and the operators that bind numbers. Each operator has a
rank; an operand is followed by operators of at least the rank that is asked for.
-/

namespace PlatformBundle.Shell

inductive SumToken where
  | number (value : Int)
  | name (text : String)
  | sign (text : String)
  deriving DecidableEq

namespace Sum

def isDigitOrLetter (c : Char) : Bool := c.isAlphanum || c == '_'

def numberOf (digits : List Char) : Int :=
  Int.ofNat (digits.foldl (fun value digit => 10 * value + (digit.toNat - 48)) 0)

def pairs : List String := ["<=", ">=", "==", "!=", "&&", "||"]

def tokensFrom : Nat → List Char → List SumToken
  | 0, _ => []
  | _, [] => []
  | fuel + 1, c :: rest =>
      if c = ' ' || c = '\n' || c = '\t' || c = '$' then tokensFrom fuel rest
      else if isDigitOrLetter c then
        let (text, after) := (c :: rest).span isDigitOrLetter
        (if text.all Char.isDigit then .number (numberOf text) else .name (String.ofList text)) ::
          tokensFrom fuel after
      else
        let pair := String.ofList (c :: rest.take 1)
        if pairs.contains pair then .sign pair :: tokensFrom fuel (rest.drop 1)
        else .sign (String.ofList [c]) :: tokensFrom fuel rest

def rank : String → Option Nat
  | "||" => some 1
  | "&&" => some 2
  | "==" | "!=" => some 3
  | "<" | ">" | "<=" | ">=" => some 4
  | "+" | "-" => some 5
  | "*" | "/" | "%" => some 6
  | _ => none

def ofBool (b : Bool) : Int := if b then 1 else 0

/-- Division goes toward zero, and there is none by zero. -/
def apply (operator : String) (a b : Int) : Option Int :=
  match operator with
  | "||" => some (ofBool (a != 0 || b != 0))
  | "&&" => some (ofBool (a != 0 && b != 0))
  | "==" => some (ofBool (a == b))
  | "!=" => some (ofBool (a != b))
  | "<" => some (ofBool (decide (a < b)))
  | ">" => some (ofBool (decide (b < a)))
  | "<=" => some (ofBool (decide (a ≤ b)))
  | ">=" => some (ofBool (decide (b ≤ a)))
  | "+" => some (a + b)
  | "-" => some (a - b)
  | "*" => some (a * b)
  | "/" => if b = 0 then none else some (Int.tdiv a b)
  | "%" => if b = 0 then none else some (Int.tmod a b)
  | _ => none

mutual

def operand (lookup : String → Int) : Nat → List SumToken → Option (Int × List SumToken)
  | 0, _ => none
  | _ + 1, .number value :: rest => some (value, rest)
  | _ + 1, .name text :: rest => some (lookup text, rest)
  | fuel + 1, .sign "-" :: rest =>
      (operand lookup fuel rest).map fun (value, rest) => (-value, rest)
  | fuel + 1, .sign "+" :: rest => operand lookup fuel rest
  | fuel + 1, .sign "!" :: rest =>
      (operand lookup fuel rest).map fun (value, rest) => (ofBool (value == 0), rest)
  | fuel + 1, .sign "(" :: rest =>
      match ranked lookup fuel 1 rest with
      | some (value, .sign ")" :: rest) => some (value, rest)
      | _ => none
  | _, _ => none

def ranked (lookup : String → Int) : Nat → Nat → List SumToken → Option (Int × List SumToken)
  | 0, _, _ => none
  | fuel + 1, least, tokens =>
      match operand lookup fuel tokens with
      | some (value, rest) => continued lookup fuel least value rest
      | none => none

def continued (lookup : String → Int) :
    Nat → Nat → Int → List SumToken → Option (Int × List SumToken)
  | 0, _, _, _ => none
  | fuel + 1, least, value, .sign operator :: rest =>
      match rank operator with
      | some own =>
          if own < least then some (value, .sign operator :: rest)
          else match ranked lookup fuel (own + 1) rest with
            | some (right, rest) =>
                match apply operator value right with
                | some result => continued lookup fuel least result rest
                | none => none
            | none => none
      | none => some (value, .sign operator :: rest)
  | _ + 1, _, value, rest => some (value, rest)

end

def evaluate (lookup : String → Int) (text : List Char) : Option Int :=
  let tokens := tokensFrom (text.length + 1) text
  if tokens.isEmpty then some 0
  else match ranked lookup (4 * (tokens.length + 1)) 1 tokens with
    | some (value, []) => some value
    | _ => none

end Sum

end PlatformBundle.Shell
