/-!
Items of a TOML document, and how its statements build them up. A table may be built in several
places, but only once in each way: a header may define a table that so far has only been passed
through, and dotted keys may go on with tables that dotted keys began. An inline table is closed.
-/

namespace PlatformBundle

inductive TableKind where
  /-- A header has passed through it on the way to a table further in. -/
  | implied
  /-- A dotted key has passed through it. -/
  | dotted
  /-- A header has named it, or it is the document itself. -/
  | defined
  | inline
  deriving DecidableEq

inductive Toml where
  | string (text : String)
  | bool (value : Bool)
  | integer (value : Int)
  /-- Of a float only this is kept: whether it is in the range of doubles. -/
  | float (inRange : Bool)
  | datetime (text : String)
  /-- `ofTables` marks an array that headers append to. -/
  | array (ofTables : Bool) (items : List Toml)
  | table (kind : TableKind) (members : List (String × Toml))

namespace Toml

structure Table where
  kind : TableKind
  members : List (String × Toml)

def Table.toItem (made : Table) : Toml := .table made.kind made.members

def editMember (key : String) (edit : Option Toml → Option Toml) :
    List (String × Toml) → Option (List (String × Toml))
  | [] => (edit none).map (fun item => [(key, item)])
  | (k, item) :: rest =>
      if k = key then (edit (some item)).map (fun item => (k, item) :: rest)
      else (editMember key edit rest).map ((k, item) :: ·)

def editLast (edit : Toml → Option Toml) : List Toml → Option (List Toml)
  | [] => none
  | [item] => (edit item).map ([·])
  | item :: next :: others => (editLast edit (next :: others)).map (item :: ·)

/-- A path may go through a table unless it is closed; dotted keys also stop at a defined one. -/
def mayPass (dotted : Bool) (kind : TableKind) : Bool :=
  kind ≠ .inline && !(dotted && kind = .defined)

-- A path goes through the last table of an array of tables, and makes the tables it misses.
def editAt (dotted : Bool) (edit : Table → Option Table) : List String → Table → Option Table
  | [], here => edit here
  | key :: path, here =>
      let onTable := fun (inner : Table) => (editAt dotted edit path inner).map Table.toItem
      let onItem := fun (item : Option Toml) =>
        match item with
        | none => onTable ⟨if dotted then .dotted else .implied, []⟩
        | some (.table kind members) =>
            if mayPass dotted kind then onTable ⟨kind, members⟩ else none
        | some (.array true items) =>
            (editLast (fun item =>
              match item with
              | .table kind members => onTable ⟨kind, members⟩
              | _ => none) items).map (.array true)
        | some _ => none
      (editMember key onItem here.members).map (Table.mk here.kind)

def addMember (path : List String) (key : String) (item : Toml) (here : Table) : Option Table :=
  editAt true (fun inner =>
    if (inner.kind == .dotted) == path.isEmpty then none
    else (editMember key (fun old => if old.isSome then none else some item) inner.members).map
      (Table.mk inner.kind)) path here

/-- A header names a new table, or one that was only passed through. -/
def openTable (path : List String) (key : String) (document : Table) : Option Table :=
  editAt false (fun above =>
    (editMember key (fun old =>
      match old with
      | none => some (.table .defined [])
      | some (.table .implied members) => some (.table .defined members)
      | some _ => none) above.members).map (Table.mk above.kind)) path document

def appendTable (path : List String) (key : String) (document : Table) : Option Table :=
  editAt false (fun above =>
    (editMember key (fun old =>
      match old with
      | none => some (.array true [.table .defined []])
      | some (.array true items) => some (.array true (items ++ [.table .defined []]))
      | some _ => none) above.members).map (Table.mk above.kind)) path document

def addBelow (header : List String) (path : List String) (key : String) (item : Toml)
    (document : Table) : Option Table :=
  editAt false (addMember path key item) header document

end Toml

end PlatformBundle
