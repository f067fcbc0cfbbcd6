import PlatformBundle.KeyMap
import PlatformBundle.Toml.Item
/-!
Reading records from TOML items. A record is written as a table with its members by name, or as an
array with its members in their order, where items past the last member are passed over. A date is
read as a table with one member. A table may or may not have members that the record does not
know; those are passed over when all numbers in them can be represented.
-/

namespace PlatformBundle.Toml

/-- The name under which a date is a table's only member. -/
def dateKey : String := "$__toml_private_datetime"

def members? : Toml → Option (List (String × Toml))
  | .table _ members => some members
  | .datetime text => some [(dateKey, .string text)]
  | _ => none

/-- Signed and unsigned integers have at most 128 bits. -/
def integerFits (value : Int) : Bool := -Int.pow 2 127 ≤ value && value < Int.pow 2 128

mutual

def readable : Toml → Bool
  | .integer value => integerFits value
  | .float inRange => inRange
  | .array _ items => readableItems items
  | .table _ members => readableMembers members
  | .string _ | .bool _ | .datetime _ => true

def readableItems : List Toml → Bool
  | [] => true
  | item :: rest => readable item && readableItems rest

def readableMembers : List (String × Toml) → Bool
  | [] => true
  | (_, item) :: rest => readable item && readableMembers rest

end

inductive Unknown where
  | refused
  | passedOver
  deriving DecidableEq

def acceptsUnknown (unknown : Unknown) (item : Toml) : Bool :=
  match unknown with
  | .refused => false
  | .passedOver => readable item

def named (unknown : Unknown) (names : List String) (members : List (String × Toml)) :
    Option (List (Option Toml)) :=
  if members.all (fun member => names.contains member.1 || acceptsUnknown unknown member.2) then
    some (names.map (fun name => KeyMap.lookup name members))
  else none

def record? (unknown : Unknown) (names : List String) (item : Toml) :
    Option (List (Option Toml)) :=
  match item with
  | .array _ items =>
      some ((items.take names.length).map some ++ List.replicate (names.length - items.length) none)
  | _ => item.members?.bind (named unknown names)

def text? : Toml → Option String
  | .string text => some text
  | _ => none

def bool? : Toml → Option Bool
  | .bool value => some value
  | _ => none

def texts? : Toml → Option (List String)
  | .array _ items => items.mapM text?
  | _ => none

def mapOf? {β : Type} (read : Toml → Option β) (item : Toml) : Option (KeyMap β) := do
  let members ← item.members?
  let entries ← members.mapM (fun member => (read member.2).map (member.1, ·))
  some (KeyMap.ofList entries)

def optional {β : Type} (read : Toml → Option β) : Option Toml → Option (Option β)
  | none => some none
  | some item => (read item).map some

def orElse {β : Type} (usual : β) (read : Toml → Option β) : Option Toml → Option β
  | none => some usual
  | some item => read item

end PlatformBundle.Toml
