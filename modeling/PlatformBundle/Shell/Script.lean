import PlatformBundle.Shell.Token
/-!
Reading the commands of a script. A script is read one line at a time, so a fault in a line leaves
the commands of the lines before it standing. The fuel of the readers is the number of tokens; each
of them takes a token before it reads on.
-/

namespace PlatformBundle.Shell

/-- The tokens that are left, with the line that the last one stood in. -/
structure Ahead where
  tokens : List PlacedToken
  line : Nat

abbrev Reading := StateT Ahead (Except SyntaxFault)

namespace Reading

def peek : Reading (Option Token) := do
  return (← get).tokens.head?.map PlacedToken.token

def lineOf (ahead : Ahead) : Nat := (ahead.tokens.head?.map PlacedToken.line).getD ahead.line

def skip : Reading Unit :=
  modify fun ahead => { tokens := ahead.tokens.drop 1, line := lineOf ahead }

def shown : Option Token → String
  | none => "end of file unexpected"
  | some (.sign "\n") => "newline unexpected"
  | some (.sign text) => "\"" ++ text ++ "\" unexpected"
  | some (.redirect _ _) => "redirection unexpected"
  | some (.broken text) => text
  | some (.word parts) =>
      match Word.bare? parts with
      | some chars => "\"" ++ String.ofList chars ++ "\" unexpected"
      | none => "word unexpected"

def refuse {α : Type} (expected : Option String) : Reading α := do
  let ahead ← get
  let token ← peek
  let hint := match token, expected with
    | some (.broken _), _ => ""
    | _, some "\n" => ""
    | _, some text => " (expecting \"" ++ text ++ "\")"
    | _, none => ""
  throw ⟨lineOf ahead, shown token ++ hint⟩

def isBreak (placed : PlacedToken) : Bool :=
  match placed.token with
  | .sign "\n" => true
  | _ => false

def skipBreaks : Reading Unit :=
  modify fun ahead => { ahead with tokens := ahead.tokens.dropWhile isBreak }

def isWord (text : String) : Option Token → Bool
  | some (.word parts) => Word.bare? parts == some text.toList
  | _ => false

def isSign (text : String) : Option Token → Bool
  | some (.sign other) => other == text
  | _ => false

def takeWord (text : String) : Reading Bool := do
  let found := isWord text (← peek)
  if found then skip
  return found

def takeSign (text : String) : Reading Bool := do
  let found := isSign text (← peek)
  if found then skip
  return found

def expectWord (text : String) : Reading Unit := do
  if !(← takeWord text) then refuse (some text)

def expectSign (text : String) : Reading Unit := do
  if !(← takeSign text) then refuse (some text)

def closing : List String := ["then", "elif", "else", "fi", "do", "done", "esac", "\x7d"]

def endsList (token : Option Token) : Bool :=
  match token with
  | none => true
  | some (.sign ")") => true
  | some (.sign ";;") => true
  | found => closing.any (isWord · found)

def assignment? : Word → Option (String × Word)
  | .text chars false :: rest =>
      match Text.cutFirst '=' chars with
      | some (c :: name, value) =>
          if Token.isNameStart c && name.all Token.isNameChar then
            some (String.ofList (c :: name), if value.isEmpty then rest else
              .text value false :: rest)
          else none
      | _ => none
  | _ => none

def anyWord : Reading Word := do
  match ← peek with
  | some (.word parts) => do
      skip
      return parts
  | _ => refuse none

def words : Nat → Reading (List Word)
  | 0 => return []
  | fuel + 1 => do
      match ← peek with
      | some (.word parts) => do
          skip
          return parts :: (← words fuel)
      | _ => return []

def redirects : Nat → Reading (List Redirect)
  | 0 => return []
  | fuel + 1 => do
      match ← peek with
      | some (.redirect descriptor kind) => do
          skip
          let target ← anyWord
          return ⟨descriptor, kind, target⟩ :: (← redirects fuel)
      | _ => return []

def simpleRest : Nat → SimpleCommand → Reading SimpleCommand
  | 0, command => return command
  | fuel + 1, command => do
      match ← peek with
      | some (.word parts) => do
          skip
          match command.words, assignment? parts with
          | [], some assignment =>
              simpleRest fuel
                { command with assignments := command.assignments ++ [assignment] }
          | _, _ => simpleRest fuel { command with words := command.words ++ [parts] }
      | some (.redirect descriptor kind) => do
          skip
          let target ← anyWord
          simpleRest fuel
            { command with redirects := command.redirects ++ [⟨descriptor, kind, target⟩] }
      | _ => return command

/-- A command without any keyword; there has to be something of it. -/
def simple (fuel : Nat) : Reading Command := do
  let line := lineOf (← get)
  match ← peek with
  | some (.word _) | some (.redirect _ _) =>
      return .simple (← simpleRest fuel ⟨line, [], [], []⟩)
  | _ => refuse none

def patterns : Nat → Reading (List Word)
  | 0 => return []
  | fuel + 1 => do
      let pattern ← anyWord
      if ← takeSign "|" then return pattern :: (← patterns fuel)
      expectSign ")"
      return [pattern]

def loopWords (fuel : Nat) : Reading (Option (List Word)) := do
  skipBreaks
  if ← takeWord "in" then
    let found ← words fuel
    if !(← takeSign ";") then expectSign "\n"
    return some found
  let _ ← takeSign ";"
  return none

def withRedirects (fuel : Nat) (command : Command) : Reading Command := do
  match ← redirects fuel with
  | [] => return command
  | found => return .redirected command found

mutual

/-- Commands up to a closing word; where `lines` is not set, a newline ends them too. -/
def list : Nat → Bool → Reading Command
  | 0, _ => refuse none
  | fuel + 1, lines => do
      if lines then skipBreaks
      let ahead ← peek
      if endsList ahead || isSign "\n" ahead then return .nothing
      let first ← chain fuel
      if ← takeSign ";" then return .sequence first (← list fuel lines)
      if ← takeSign "&" then return .sequence (.background first) (← list fuel lines)
      if lines && isSign "\n" (← peek) then return .sequence first (← list fuel lines)
      return first

def chain : Nat → Reading Command
  | 0 => refuse none
  | fuel + 1 => do
      let first ← pipeline fuel
      chainRest fuel first

def chainRest : Nat → Command → Reading Command
  | 0, _ => refuse none
  | fuel + 1, first => do
      if ← takeSign "&&" then
        skipBreaks
        let second ← pipeline fuel
        chainRest fuel (.both first second)
      else if ← takeSign "||" then
        skipBreaks
        let second ← pipeline fuel
        chainRest fuel (.either first second)
      else return first

def pipeline : Nat → Reading Command
  | 0 => refuse none
  | fuel + 1 => do
      if ← takeWord "!" then return .negated (← pipeline fuel)
      let first ← command fuel
      if ← takeSign "|" then
        skipBreaks
        return .pipe first (← pipeline fuel)
      return first

def command : Nat → Reading Command
  | 0 => refuse none
  | fuel + 1 => do
      if ← takeSign "(" then
        let body ← list fuel true
        expectSign ")"
        withRedirects fuel (.subshell body)
      else if ← takeWord "\x7b" then
        let body ← list fuel true
        expectWord "\x7d"
        withRedirects fuel body
      else if ← takeWord "if" then
        withRedirects fuel (← choice fuel)
      else if ← takeWord "while" then
        withRedirects fuel (← loop fuel true)
      else if ← takeWord "until" then
        withRedirects fuel (← loop fuel false)
      else if ← takeWord "for" then
        let name ← anyWord
        let values ← loopWords fuel
        let body ← doGroup fuel
        withRedirects fuel (.forEach (String.ofList ((Word.bare? name).getD [])) values body)
      else if ← takeWord "case" then
        let subject ← anyWord
        skipBreaks
        expectWord "in"
        let found ← branches fuel
        withRedirects fuel (.byPattern subject found)
      else if endsList (← peek) then refuse none
      else simple fuel

def choice : Nat → Reading Command
  | 0 => refuse none
  | fuel + 1 => do
      let condition ← list fuel true
      expectWord "then"
      let body ← list fuel true
      if ← takeWord "elif" then return .choice condition body (← choice fuel)
      let other ← if ← takeWord "else" then list fuel true else pure .nothing
      expectWord "fi"
      return .choice condition body other

def loop : Nat → Bool → Reading Command
  | 0, _ => refuse none
  | fuel + 1, succeeds => do
      let condition ← list fuel true
      let body ← doGroup fuel
      return .repeated succeeds condition body

def doGroup : Nat → Reading Command
  | 0 => refuse none
  | fuel + 1 => do
      skipBreaks
      expectWord "do"
      let body ← list fuel true
      expectWord "done"
      return body

def branches : Nat → Reading (List (List Word × Command))
  | 0 => refuse none
  | fuel + 1 => do
      skipBreaks
      if ← takeWord "esac" then return []
      let _ ← takeSign "("
      let found ← patterns fuel
      let body ← list fuel true
      if ← takeSign ";;" then return (found, body) :: (← branches fuel)
      expectWord "esac"
      return [(found, body)]

end

end Reading

structure Script where
  commands : List Command
  fault : Option SyntaxFault

namespace Script

def readLine (fuel : Nat) : Reading Command := do
  let command ← Reading.list fuel false
  match ← Reading.peek with
  | none => return command
  | some (.sign "\n") => return command
  | some _ => Reading.refuse none

def ofTokens (fuel : Nat) : Nat → List PlacedToken → Script
  | 0, _ => ⟨[], none⟩
  | rounds + 1, ahead =>
      match ahead.dropWhile Reading.isBreak with
      | [] => ⟨[], none⟩
      | first :: rest =>
          match (readLine fuel).run ⟨first :: rest, first.line⟩ with
          | .error fault => ⟨[], some fault⟩
          | .ok (command, after) =>
              let later := ofTokens fuel rounds after.tokens
              { later with commands := command :: later.commands }

/-- A number of steps that is never used up: a command in a list takes some eight of them. -/
def stepsFor (count : Nat) : Nat := 16 * (count + 1)

def read (text : List Char) : Script :=
  let found := tokens text
  ofTokens (stepsFor found.length) (found.length + 1) found

end Script

end PlatformBundle.Shell
