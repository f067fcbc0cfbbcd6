import PlatformBundle.Json.Number
/-!
Written JSON before its values are checked. A term keeps numbers as they are written and a text as
its pieces, because a reader that passes over a member it does not know asks no more of it than
that it is well formed. `Term.value?` asks for everything: nesting, the range of numbers and
complete surrogate pairs.
-/

namespace PlatformBundle.Json

/-- A piece of a written text: a character, or a 16-bit unit that was given by its digits. -/
inductive TextPiece where
  | char (c : Char)
  | unit (code : Nat)
  deriving DecidableEq

inductive Term where
  | null
  | bool (value : Bool)
  | number (text : NumberText)
  | string (pieces : List TextPiece)
  | array (items : List Term)
  | object (members : List (List TextPiece × Term))

def isLeadUnit (code : Nat) : Bool := 0xD800 ≤ code && code ≤ 0xDBFF

def isTrailUnit (code : Nat) : Bool := 0xDC00 ≤ code && code ≤ 0xDFFF

def pairValue (lead trail : Nat) : Nat := 0x10000 + (lead - 0xD800) * 0x400 + (trail - 0xDC00)

/-- The characters of the pieces; a surrogate without its partner has none. -/
def charsOf : List TextPiece → Option (List Char)
  | [] => some []
  | .char c :: rest => (charsOf rest).map (c :: ·)
  | .unit lead :: .unit trail :: rest =>
      if isLeadUnit lead then
        if isTrailUnit trail then (charsOf rest).map (Char.ofNat (pairValue lead trail) :: ·)
        else none
      else if isTrailUnit lead then none
      else (charsOf (.unit trail :: rest)).map (Char.ofNat lead :: ·)
  | .unit code :: rest =>
      if isLeadUnit code || isTrailUnit code then none
      else (charsOf rest).map (Char.ofNat code :: ·)

def textOf (pieces : List TextPiece) : Option String := (charsOf pieces).map String.ofList

def deepest : Nat := 127

namespace Term

mutual

/-- The value of a term with at most `room` arrays and objects inside one another. -/
def valueWithin (room : Nat) : Term → Option Json
  | .null => some .null
  | .bool value => some (.bool value)
  | .number text => text.value?.map .number
  | .string pieces => (textOf pieces).map .string
  | .array items =>
      match room with
      | 0 => none
      | left + 1 => (itemsWithin left items).map .array
  | .object members =>
      match room with
      | 0 => none
      | left + 1 => (membersWithin left members).map (fun m => .object (KeyMap.ofList m).entries)

def itemsWithin (room : Nat) : List Term → Option (List Json)
  | [] => some []
  | item :: rest => do
      let value ← valueWithin room item
      let values ← itemsWithin room rest
      some (value :: values)

def membersWithin (room : Nat) : List (List TextPiece × Term) → Option (List (String × Json))
  | [] => some []
  | (key, item) :: rest => do
      let name ← textOf key
      let value ← valueWithin room item
      let values ← membersWithin room rest
      some ((name, value) :: values)

end

def value? (term : Term) : Option Json := term.valueWithin deepest

end Term

end PlatformBundle.Json
