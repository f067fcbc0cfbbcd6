import PlatformBundle.Json.Term
/-!
Reading records from JSON. A record has named members in a fixed order. It is written as an object
in which each of its names stands at most once and other names are passed over, or as an array
with the members in their order, of which the last ones may be left out.
-/

namespace PlatformBundle.Json.Term

def namedMembers (members : List (List TextPiece × Term)) : Option (List (String × Term)) :=
  members.mapM (fun member => (textOf member.1).map (·, member.2))

/-- The member of a name, if there is one; `none` when the name stands twice. -/
def uniqueMember (members : List (String × Term)) (name : String) : Option (Option Term) :=
  match members.filter (fun member => member.1 == name) with
  | [] => some none
  | [member] => some (some member.2)
  | _ => none

def record? (names : List String) : Term → Option (List (Option Term))
  | .array items =>
      if items.length ≤ names.length then
        some (items.map some ++ List.replicate (names.length - items.length) none)
      else none
  | .object members => do
      let named ← namedMembers members
      names.mapM (uniqueMember named)
  | _ => none

def text? : Term → Option String
  | .string pieces => textOf pieces
  | _ => none

def texts? : Term → Option (List String)
  | .array items => items.mapM text?
  | _ => none

/-- A map whose values are read by `read`; of two members with one key the later stands. -/
def mapOf? {β : Type} (read : Term → Option β) : Term → Option (KeyMap β)
  | .object members => do
      let named ← namedMembers members
      let entries ← named.mapM (fun member => (read member.2).map (member.1, ·))
      some (KeyMap.ofList entries)
  | _ => none

def orElse? {β : Type} (missing : β) (read : Term → Option β) : Option Term → Option β
  | none => some missing
  | some term => read term

end PlatformBundle.Json.Term
