import PlatformBundle.KeyMap
/-!
JSON values. An object is a list of its members in the order in which they are written; a value
that was read has its members in ascending order of their keys, each key once.
-/

namespace PlatformBundle

/-- A number is a 64-bit integer, signed or unsigned, or else a double, given by its bits. -/
inductive JsonNumber where
  | integer (value : Int)
  | double (bits : UInt64)
  deriving DecidableEq

inductive Json where
  | null
  | bool (value : Bool)
  | number (value : JsonNumber)
  | string (text : String)
  | array (items : List Json)
  | object (members : List (String × Json))

namespace Json

def member? (key : String) : Json → Option Json
  | .object members => KeyMap.lookup key members
  | _ => none

def string? : Json → Option String
  | .string text => some text
  | _ => none

def ofStrings (texts : List String) : Json := .array (texts.map .string)

def ofMap (map : KeyMap String) : Json :=
  .object (map.entries.map (fun entry => (entry.1, .string entry.2)))

def ofOption : Option String → Json
  | some text => .string text
  | none => .null

def ofNat (n : Nat) : Json := .number (.integer n)

end Json

end PlatformBundle
