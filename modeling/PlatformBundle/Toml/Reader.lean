import PlatformBundle.Toml.Scalar
/-!
Reading a TOML document. A carriage return may stand only in front of a newline, and is dropped
there. The document is a sequence of statements, one on a line: a header opens a table, and a key
with a value adds a member to the table opened last. Arrays and inline tables may go on over
several lines and be nested up to `deepest` levels.
-/

namespace PlatformBundle.Toml

abbrev Scan := StateT (List Char) Option

namespace Scan

def peek : Scan (Option Char) := do
  let text ← get
  pure text.head?

def skip (count : Nat) : Scan Unit := modify (List.drop count)

def expect (c : Char) : Scan Unit := do
  if (← peek) = some c then skip 1 else failure

def takeWhile (accepts : Char → Bool) : Scan (List Char) := do
  let text ← get
  set (text.dropWhile accepts)
  pure (text.takeWhile accepts)

/-- Hands the text to a function that gives back what it leaves. -/
def through {α : Type} (read : List Char → Option (α × List Char)) : Scan α := read

end Scan

def deepest : Nat := 80

def isSpace (c : Char) : Bool := c == ' ' || c == '\t'

def isPlain (c : Char) : Bool := c == '\t' || (0x20 ≤ c.toNat && c.toNat ≠ 0x7F)

def isBareKey (c : Char) : Bool := c.isAlphanum || c == '_' || c == '-'

/-- The text with newlines alone as line ends, unless a carriage return stands elsewhere. -/
def plainLines : List Char → Option (List Char)
  | [] => some []
  | '\r' :: '\n' :: rest => (plainLines rest).map ('\n' :: ·)
  | c :: rest => if c = '\r' then none else (plainLines rest).map (c :: ·)

/-! ## Strings -/

def hexChar (count : Nat) (text : List Char) : Option (Char × List Char) := do
  let digits ← (text.take count).mapM hexDigit?
  let value := valueIn 16 digits
  if digits.length = count ∧ value.isValidChar then
    some (Char.ofNat value, text.drop count)
  else none

def escape : List Char → Option (Char × List Char)
  | 'b' :: rest => some ('\x08', rest)
  | 't' :: rest => some ('\t', rest)
  | 'n' :: rest => some ('\n', rest)
  | 'f' :: rest => some ('\x0c', rest)
  | 'r' :: rest => some ('\r', rest)
  | 'e' :: rest => some ('\x1b', rest)
  | '"' :: rest => some ('"', rest)
  | '\\' :: rest => some ('\\', rest)
  | 'x' :: rest => hexChar 2 rest
  | 'u' :: rest => hexChar 4 rest
  | 'U' :: rest => hexChar 8 rest
  | _ => none

def basicFrom : Nat → List Char → Option (List Char × List Char)
  | 0, _ => none
  | _, [] => none
  | fuel + 1, c :: rest =>
      if c = '"' then some ([], rest)
      else if c = '\\' then do
        let (e, rest) ← escape rest
        let (text, rest) ← basicFrom fuel rest
        some (e :: text, rest)
      else if isPlain c then do
        let (text, rest) ← basicFrom fuel rest
        some (c :: text, rest)
      else none

def literalFrom : List Char → Option (List Char × List Char)
  | [] => none
  | c :: rest =>
      if c = '\'' then some ([], rest)
      else if isPlain c then (literalFrom rest).map (fun (text, rest) => (c :: text, rest))
      else none

/-- Three quotes end a long string; of more, up to two belong to the string. -/
def closesLong (quote : Char) (text : List Char) : Option (List Char × List Char) :=
  let count := (text.takeWhile (· == quote)).length
  if 3 ≤ count then
    let inside := min (count - 3) 2
    some (List.replicate inside quote, text.drop (inside + 3))
  else none

def isSpaceOrBreak (c : Char) : Bool := isSpace c || c == '\n'

/-- A backslash at the end of a line joins it with the next line that holds something. -/
def joinLines (text : List Char) : Option (List Char) :=
  let rest := text.dropWhile isSpace
  if rest.head? = some '\n' then some (rest.dropWhile isSpaceOrBreak) else none

def longBasicFrom : Nat → List Char → Option (List Char × List Char)
  | 0, _ => none
  | _, [] => none
  | fuel + 1, c :: rest =>
      match closesLong '"' (c :: rest) with
      | some closed => some closed
      | none =>
          if c = '\\' then
            match joinLines rest with
            | some rest => longBasicFrom fuel rest
            | none => do
                let (e, rest) ← escape rest
                let (text, rest) ← longBasicFrom fuel rest
                some (e :: text, rest)
          else if isPlain c || c == '\n' then do
            let (text, rest) ← longBasicFrom fuel rest
            some (c :: text, rest)
          else none

def longLiteralFrom : List Char → Option (List Char × List Char)
  | [] => none
  | c :: rest =>
      match closesLong '\'' (c :: rest) with
      | some closed => some closed
      | none =>
          if isPlain c || c == '\n' then
            (longLiteralFrom rest).map (fun (text, rest) => (c :: text, rest))
          else none

/-- A newline right after the opening quotes does not belong to a long string. -/
def withoutFirstBreak : List Char → List Char
  | '\n' :: rest => rest
  | text => text

def string? (text : List Char) : Option (List Char × List Char) :=
  match text with
  | '"' :: '"' :: '"' :: rest => longBasicFrom (rest.length + 1) (withoutFirstBreak rest)
  | '"' :: rest => basicFrom (rest.length + 1) rest
  | '\'' :: '\'' :: '\'' :: rest => longLiteralFrom (withoutFirstBreak rest)
  | '\'' :: rest => literalFrom rest
  | _ => none

/-! ## Keys -/

def shortString? (text : List Char) : Option (List Char × List Char) :=
  match text with
  | '"' :: rest => basicFrom (rest.length + 1) rest
  | '\'' :: rest => literalFrom rest
  | _ => none

def simpleKey : Scan String := do
  match ← Scan.peek with
  | some '"' | some '\'' => String.ofList <$> Scan.through shortString?
  | _ => do
      let name ← Scan.takeWhile isBareKey
      if name.isEmpty then failure else pure (String.ofList name)

def skipSpace : Scan Unit := do
  let _ ← Scan.takeWhile isSpace

def dottedKey : Nat → Scan (List String × String)
  | 0 => failure
  | fuel + 1 => do
      let name ← simpleKey
      skipSpace
      if (← Scan.peek) = some '.' then do
        Scan.skip 1
        skipSpace
        let (path, last) ← dottedKey fuel
        pure (name :: path, last)
      else pure ([], name)

/-! ## Values -/

def skipComment : Scan Unit := do
  if (← Scan.peek) = some '#' then do
    let comment ← Scan.takeWhile (· != '\n')
    if comment.all isPlain then pure () else failure
  else pure ()

def skipLines : Nat → Scan Unit
  | 0 => failure
  | fuel + 1 => do
      skipSpace
      skipComment
      if (← Scan.peek) = some '\n' then do
        Scan.skip 1
        skipLines fuel
      else pure ()

def endsScalar (c : Char) : Bool :=
  isSpace c || c == '\n' || c == ',' || c == ']' || c == '\x7d' || c == '#'

def isDate (text : List Char) : Bool := text.length == 10 && (takeDate text).isSome

/-- A bare value; a time may follow its date after one blank. -/
def scalar : Scan Toml := do
  let first ← Scan.takeWhile (fun c => !endsScalar c)
  let rest ← get
  let more :=
    match rest with
    | ' ' :: c :: _ => isDate first && c.isDigit
    | _ => false
  let text ←
    if more then do
      Scan.skip 1
      let second ← Scan.takeWhile (fun c => !endsScalar c)
      pure (first ++ ' ' :: second)
    else pure first
  match scalar? text with
  | some item => pure item
  | none => failure

mutual

/-- A value with at most `room` arrays and inline tables inside one another. -/
def value : Nat → Nat → Scan Toml
  | 0, _ => failure
  | fuel + 1, room => do
      match ← Scan.peek with
      | some '"' | some '\'' => (fun text => .string (String.ofList text)) <$> Scan.through string?
      | some '[' =>
          match room with
          | 0 => failure
          | left + 1 => do
              Scan.skip 1
              let items ← arrayItems fuel left
              pure (.array false items)
      | some '\x7b' =>
          match room with
          | 0 => failure
          | left + 1 => do
              Scan.skip 1
              let made ← inlineMembers fuel left ⟨.inline, []⟩
              pure made.toItem
      | _ => scalar

def arrayItems : Nat → Nat → Scan (List Toml)
  | 0, _ => failure
  | fuel + 1, room => do
      skipLines fuel
      if (← Scan.peek) = some ']' then do
        Scan.skip 1
        pure []
      else do
        let item ← value fuel room
        skipLines fuel
        match ← Scan.peek with
        | some ',' => do
            Scan.skip 1
            let items ← arrayItems fuel room
            pure (item :: items)
        | some ']' => do
            Scan.skip 1
            pure [item]
        | _ => failure

def inlineMembers : Nat → Nat → Table → Scan Table
  | 0, _, _ => failure
  | fuel + 1, room, made => do
      skipLines fuel
      if (← Scan.peek) = some '\x7d' then do
        Scan.skip 1
        pure made
      else do
        let (path, key) ← dottedKey fuel
        skipSpace
        Scan.expect '='
        skipSpace
        let item ← value fuel room
        match addMember path key item made with
        | none => failure
        | some made => do
            skipLines fuel
            match ← Scan.peek with
            | some ',' => do
                Scan.skip 1
                inlineMembers fuel room made
            | some '\x7d' => do
                Scan.skip 1
                pure made
            | _ => failure

end

/-! ## Statements -/

/-- A document under way: what has been read, and the path of the last header. -/
structure Progress where
  document : Table
  header : List String

def header (fuel : Nat) (progress : Progress) : Scan Progress := do
  Scan.skip 1
  let double := (← Scan.peek) = some '['
  if double then Scan.skip 1
  skipSpace
  let (path, key) ← dottedKey fuel
  skipSpace
  Scan.expect ']'
  if double then Scan.expect ']'
  let opened :=
    if double then appendTable path key progress.document
    else openTable path key progress.document
  match opened with
  | some document => pure ⟨document, path ++ [key]⟩
  | none => failure

def member (fuel : Nat) (progress : Progress) : Scan Progress := do
  let (path, key) ← dottedKey fuel
  skipSpace
  Scan.expect '='
  skipSpace
  let item ← value fuel deepest
  match addBelow progress.header path key item progress.document with
  | some document => pure { progress with document }
  | none => failure

def statement (fuel : Nat) (progress : Progress) : Scan Progress := do
  match ← Scan.peek with
  | none | some '\n' | some '#' => pure progress
  | some '[' => header fuel progress
  | some _ => member fuel progress

def statements : Nat → Progress → Scan Progress
  | 0, _ => failure
  | fuel + 1, progress => do
      skipSpace
      let progress ← statement fuel progress
      skipSpace
      skipComment
      match ← Scan.peek with
      | none => pure progress
      | some '\n' => do
          Scan.skip 1
          statements fuel progress
      | some _ => failure

def withoutMark : List Char → List Char
  | '\uFEFF' :: rest => rest
  | text => text

def read (text : String) : Option (List (String × Toml)) := do
  let text ← plainLines (withoutMark text.toList)
  let fuel := 2 * text.length + 8
  let (progress, _) ← StateT.run (statements fuel ⟨⟨.defined, []⟩, []⟩) text
  some progress.document.members

end PlatformBundle.Toml
