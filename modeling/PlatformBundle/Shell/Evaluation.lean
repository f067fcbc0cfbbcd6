import PlatformBundle.Process
import PlatformBundle.Shell.Expansion
import PlatformBundle.Shell.Program
import PlatformBundle.Shell.Script
import PlatformBundle.Shell.Utility
/-!
Running commands. A command takes a session and leaves one, with an outcome that says whether the
next command is to be run. Commands run one after another, also in a pipeline: its source runs to
its end before its sink begins. `step` says how a command runs when its parts can be run, and `run`
ties the knot with a bound on how deep parts may be nested.
-/

namespace PlatformBundle.Shell

inductive Outcome where
  | done
  | exit (status : Nat)
  | killed (signal : Nat)
  /-- Leaves that many loops more than the innermost one. -/
  | leave (levels : Nat)
  /-- Goes on with the next round of a loop, that many loops further out. -/
  | again (levels : Nat)
  deriving DecidableEq

abbrev Act := Session → Outcome × Session

namespace Evaluation

def runAll (inner : Command → Act) : List Command → Act
  | [], session => (.done, session)
  | command :: rest, session =>
      match inner command session with
      | (.done, session) => runAll inner rest session
      | stop => stop

def runScript (inner : Command → Act) (text : List Char) : Act := fun session =>
  let script := Script.read text
  match runAll inner script.commands session, script.fault with
  | (.done, session), some fault =>
      (.exit 2, { session with line := fault.line }.complain ("Syntax error: " ++ fault.text))
  | result, _ => result

/-- Runs something in a session of its own; of what it does to itself nothing is kept. -/
def isolated (act : Act) : Act := fun session =>
  match act session with
  | (.killed signal, ran) => (.killed signal, session.afterSubshell ran)
  | (.exit status, ran) => (.done, (session.afterSubshell ran).withStatus status)
  | (_, ran) => (.done, session.afterSubshell ran)

def capture (inner : Command → Act) : Expansion.Capture := fun text session =>
  let (channel, opened) := session.openOutput
  let (_, ran) := isolated (runScript inner text) (opened.connect 1 channel)
  ((ran.output session.outputs.size).data.toList, { ran with channels := session.channels })

def runJobs (inner : Command → Act) : List Job → Session → Session
  | [], session => session
  | job :: rest, session =>
      let (_, ran) := isolated (inner job.body) (session.forJob job)
      runJobs inner rest (session.afterSubshell ran)

def catchUp (inner : Command → Act) (session : Session) : Session :=
  (runJobs inner session.jobs { session with jobs := [] }).withStatus session.status

/-! ## Redirections -/

def nowherePath : String := "/dev/null"

def createText : IoCause → String
  | .notFound | .notDirectory => "Directory nonexistent"
  | cause => cause.text

def openText : IoCause → String
  | .notFound | .notDirectory => "No such file"
  | cause => cause.text

def failed (session : Session) (text : String) : Bool × Session := (false, session.failing text 2)

def connectFile (session : Session) (descriptor : Nat) (path : String)
    (ready : DiskResult Unit) : Bool × Session :=
  let refused := fun cause => failed session ("cannot create " ++ path ++ ": " ++ createText cause)
  match ready with
  | (.error cause, _) => refused cause
  | (.ok (), disk) =>
      match disk.stat ⟨path⟩ with
      | .ok (place, _) => (true, { session with disk }.connect descriptor (.file place))
      | .error cause => refused cause

def redirect (session : Session) (descriptor : Nat) (kind : RedirectKind) (target : String) :
    Bool × Session :=
  if target = nowherePath && kind != .duplicate then (true, session.connect descriptor .nowhere)
  else match kind with
    | .duplicate =>
        if target = "-" then (true, session.close descriptor)
        else match target.toNat?.bind session.channel? with
          | some channel => (true, session.connect descriptor channel)
          | none => failed session (target ++ ": Bad file descriptor")
    | .read =>
        match session.disk.read ⟨target⟩ with
        | .ok content =>
            let (channel, session) := session.openInput content.data.toList
            (true, session.connect descriptor channel)
        | .error cause => failed session ("cannot open " ++ target ++ ": " ++ openText cause)
    | .write =>
        connectFile session descriptor target (session.disk.write ⟨target⟩ ByteArray.empty)
    | .append =>
        connectFile session descriptor target
          (if session.disk.isFile ⟨target⟩ then (.ok (), session.disk)
          else session.disk.write ⟨target⟩ ByteArray.empty)

def redirectAll (inner : Command → Act) : List Redirect → Session → Bool × Session
  | [], session => (true, session)
  | next :: rest, session =>
      let (target, session) := Expansion.text (capture inner) session next.target
      match redirect session next.descriptor next.kind target with
      | (true, session) => redirectAll inner rest session
      | refused => refused

def redirected (inner : Command → Act) (redirects : List Redirect) (act : Act) : Act :=
  fun session =>
    match redirectAll inner redirects session with
    | (true, opened) =>
        let (outcome, ran) := act opened
        (outcome, { ran with channels := session.channels })
    | (false, stopped) => (.done, { stopped with channels := session.channels })

/-! ## Commands of the shell itself -/

def numberOr (other : Nat) (arguments : List String) : Nat :=
  (arguments.head?.bind String.toNat?).getD other

def changeDirectory (arguments : List String) (session : Session) : Session :=
  let target := arguments.head?.getD (session.value "HOME")
  match session.disk.stat ⟨target⟩ with
  | .ok (place, .directory) =>
      { session with disk := ⟨session.disk.tree, place⟩, status := 0 }
  | _ => session.failing ("cd: can't cd to " ++ target) 2

def isBlank (c : Char) : Bool := c == ' ' || c == '\t'

def trimmedEnd (text : List Char) : List Char := (text.reverse.dropWhile isBlank).reverse

/-- A line cut into the values of some names; the last name has all that is left. -/
def valuesOf : List String → List Char → List (String × String)
  | [], _ => []
  | [name], text => [(name, String.ofList (trimmedEnd (text.dropWhile isBlank)))]
  | name :: next :: others, text =>
      let (value, rest) := (text.dropWhile isBlank).span (!isBlank ·)
      (name, String.ofList value) :: valuesOf (next :: others) rest

def withoutBackslashes : List Char → List Char
  | [] => []
  | '\\' :: c :: rest => c :: withoutBackslashes rest
  | c :: rest => c :: withoutBackslashes rest

def readLine (arguments : List String) (session : Session) : Session :=
  let (options, names) := splitOptions arguments
  let (bytes, ended, session) := session.takeLine
  let text := Text.decodeLossy bytes
  let text := if options.contains 'r' then text else withoutBackslashes text
  let values := match names, session.bindings.get? "IFS" with
    | [name], some "" => [(name, String.ofList text)]
    | _, _ => valuesOf names text
  (session.setAll values).withStatus (if ended then 0 else 1)

def ignoredSignals : List Nat := [0, 17, 18, 23, 28]

def signalNumber (text : String) : Option Nat :=
  match text.toNat? with
  | some number => some number
  | none =>
      let position := ExitStatus.signalNames.findIdx? fun name =>
        name == text || name == "SIG" ++ text
      position.map (· + 1)

def defaultSignal : Nat := 15

def signalOf : List String → Option Nat × List String
  | "-s" :: name :: rest => (signalNumber name, rest)
  | argument :: rest =>
      match argument.toList with
      | '-' :: name => (signalNumber (String.ofList name), rest)
      | _ => (some defaultSignal, argument :: rest)
  | [] => (some defaultSignal, [])

def kill (arguments : List String) (session : Session) : Outcome × Session :=
  match signalOf arguments with
  | (some signal, targets) =>
      if targets.contains (toString Session.processNumber) then
        if ignoredSignals.contains signal then (.done, session.withStatus 0)
        else (.killed signal, session)
      else (.done, session.failing "kill: No such process" 1)
  | (none, _) => (.done, session.failing "kill: invalid signal" 2)

def assignmentOf (argument : String) : Option (String × String) :=
  (Text.cutFirst '=' argument.toList).map fun (name, value) =>
    (String.ofList name, String.ofList value)

def setArguments : List String → Session → Session
  | "--" :: arguments, session => { session with arguments, status := 0 }
  | first :: rest, session =>
      if first.toList.head? = some '-' || first.toList.head? = some '+' then session.withStatus 0
      else { session with arguments := first :: rest, status := 0 }
  | [], session => session.withStatus 0

/-- The options that the shell itself knows: whether a failure ends the script. -/
def setOptions (arguments : List String) (session : Session) : Session :=
  match arguments.head?.map String.toList with
  | some ('-' :: letters) =>
      if letters.contains 'e' then { session with strict := true } else session
  | some ('+' :: letters) =>
      if letters.contains 'e' then { session with strict := false } else session
  | _ => session

def ownCommand (inner : Command → Act) (name : String) (arguments : List String) :
    Option Act :=
  match name with
  | "exit" => some fun session => (.exit (numberOr session.status arguments % 256), session)
  | "break" => some fun session => (.leave (numberOr 1 arguments - 1), session.withStatus 0)
  | "continue" => some fun session => (.again (numberOr 1 arguments - 1), session.withStatus 0)
  | "cd" => some fun session => (.done, changeDirectory arguments session)
  | "read" => some fun session => (.done, readLine arguments session)
  | "kill" => some (kill arguments)
  | "shift" => some fun session =>
      (.done, { session with
        arguments := session.arguments.drop (numberOr 1 arguments), status := 0 })
  | "set" => some fun session => (.done, setOptions arguments (setArguments arguments session))
  | "wait" => some fun session => (.done, (catchUp inner session).withStatus 0)
  | "export" | "readonly" => some fun session =>
      (.done, (session.setAll (arguments.filterMap assignmentOf)).withStatus 0)
  | "unset" => some fun session =>
      (.done, (session.setAll (arguments.map (·, ""))).withStatus 0)
  | "umask" | "trap" | "ulimit" => some fun session => (.done, session.withStatus 0)
  | "eval" => some (runScript inner (Format.separated arguments).toList)
  | _ => none

/-! ## Utilities and programs -/

def perform (name : String) (utility : Utility) (arguments : List String) : Act := fun session =>
  let (input, session) :=
    if Utility.readsInput name arguments then session.takeAll else ([], session)
  let effect := utility session.disk input arguments
  let session := { session with disk := effect.disk, status := effect.status }
  let noted := effect.errors.foldl
    (fun session error => (session.write? 2 (error ++ "\n").toUTF8).getD session) session
  if effect.out.isEmpty then (.done, noted)
  else match noted.write? 1 ⟨effect.out.toArray⟩ with
    | some written => (.done, written)
    | none => (.done, noted.failing (name ++ ": I/O error") 1)

def afterProgram (session : Session) : Outcome × Session → Session
  | (.killed signal, ran) => (session.afterSubshell ran).withStatus (128 + signal)
  | (.exit status, ran) => (session.afterSubshell ran).withStatus status
  | (_, ran) => session.afterSubshell ran

def runInvocation (inner : Command → Act) (invocation : Invocation) : Act := fun session =>
  let own := { session with
    name := invocation.name
    arguments := invocation.arguments
    line := 1
    status := 0 }
  (.done, afterProgram session (runScript inner invocation.script own))

def cannotRun (name : String) (session : Session) : IoCause → Session
  | .notFound | .notDirectory => session.failing (name ++ ": not found") 127
  | cause => session.failing (name ++ ": " ++ cause.text) 126

def runFile (inner : Command → Act) (path : String) (arguments : List String) : Act :=
  fun session =>
    match Invocation.ofFile session.disk ⟨path⟩ arguments with
    | .ok invocation => runInvocation inner invocation session
    | .error cause => (.done, cannotRun path session cause)

def lookUp (session : Session) (name : String) : Option String :=
  let directories := (Text.pieces ':' (session.value "PATH").toList).map String.ofList
  let candidates := directories.map fun directory => directory ++ "/" ++ name
  candidates.find? fun path => session.disk.isFile ⟨path⟩ && TextUtility.mayRun session.disk path

def runNamed (inner : Command → Act) (name : String) (arguments : List String) : Act :=
  fun session =>
    if name.toList.contains '/' then runFile inner name arguments session
    else match Utility.named name, lookUp session name with
      | some utility, _ => perform name utility arguments session
      | none, some path => runFile inner path arguments session
      | none, none => (.done, cannotRun name session .notFound)

def dispatch (inner : Command → Act) (name : String) (arguments : List String) : Act :=
  (ownCommand inner name arguments).getD (runNamed inner name arguments)

def isKnown (session : Session) (name : String) : Bool :=
  name.toList.contains '/' || (Utility.named name).isSome || (lookUp session name).isSome

/-- A program takes the place of the shell. -/
def replace (inner : Command → Act) (name : String) (arguments : List String) : Act :=
  fun session =>
    let shown := if isKnown session name then name else "exec: " ++ name
    match runNamed inner shown arguments session with
    | (.done, ran) => (.exit ran.status, ran)
    | stop => stop

/-! ## Simple commands -/

def withAssignments (assignments : List (String × String)) (act : Act) : Act := fun session =>
  let former := assignments.map fun assignment => (assignment.1, session.value assignment.1)
  let (outcome, ran) := act (session.setAll assignments)
  (outcome, ran.setAll former)

def assignOnly (inner : Command → Act) (command : SimpleCommand)
    (assignments : List (String × String)) : Act := fun session =>
  let printed := command.assignments.any (fun entry => Word.hasOutput entry.2) ||
    command.words.any Word.hasOutput
  let assigned := session.setAll assignments
  redirected inner command.redirects (fun session => (.done, session))
    (if printed then assigned else assigned.withStatus 0)

/-- Redirections of the shell itself stay. -/
def redirectShell (inner : Command → Act) (redirects : List Redirect) : Act := fun session =>
  match redirectAll inner redirects session with
  | (true, opened) => (.done, opened.withStatus 0)
  | (false, stopped) => (.exit 2, stopped)

def simple (inner : Command → Act) (command : SimpleCommand) : Act := fun session =>
  let session := { session with line := command.line }
  let (fields, session) := Expansion.fields (capture inner) session command.words
  let (assignments, session) :=
    Expansion.assignments (capture inner) session command.assignments
  match fields with
  | [] => assignOnly inner command assignments session
  | ["exec"] => redirectShell inner command.redirects session
  | "exec" :: name :: arguments =>
      redirected inner command.redirects (replace inner name arguments) session
  | name :: arguments =>
      redirected inner command.redirects
        (withAssignments assignments (dispatch inner name arguments)) session

/-! ## Compound commands -/

/-- What the end of a round means for the loop: whether it goes on, and else how it ends. -/
def afterRound : Outcome → Except Outcome Unit
  | .done => .ok ()
  | .again 0 => .ok ()
  | .again (levels + 1) => .error (.again levels)
  | .leave 0 => .error .done
  | .leave (levels + 1) => .error (.leave levels)
  | stop => .error stop

def roundLimit : Nat := 1000000

/-- A loop, given the status of the round before. -/
def loop (succeeds : Bool) (condition body : Act) : Nat → Nat → Act
  | 0, _, session => (.exit 2, session)
  | rounds + 1, last, session =>
      match condition session with
      | (.done, checked) =>
          if (checked.status == 0) != succeeds then (.done, checked.withStatus last)
          else
            let (outcome, ran) := body checked
            match afterRound outcome with
            | .ok () => loop succeeds condition body rounds ran.status ran
            | .error stop => (stop, ran)
      | stop => stop

def forEach (name : String) (body : Act) : List String → Act
  | [], session => (.done, session)
  | value :: rest, session =>
      let (outcome, ran) := body (session.set name value)
      match afterRound outcome with
      | .ok () => forEach name body rest ran
      | .error stop => (stop, ran)

def fits (inner : Command → Act) (text : String) : List Word → Session → Bool × Session
  | [], session => (false, session)
  | word :: rest, session =>
      let (grains, session) := Expansion.ofWord (capture inner) session word
      if Pattern.accepts (Grain.pattern grains) text.toList then (true, session)
      else fits inner text rest session

def firstFitting (inner : Command → Act) (text : String) :
    List (List Word × Command) → Act
  | [], session => (.done, session.withStatus 0)
  | (patterns, body) :: rest, session =>
      match fits inner text patterns session with
      | (true, session) => inner body session
      | (false, session) => firstFitting inner text rest session

def pipe (source sink : Act) : Act := fun session =>
  let (channel, opened) := session.openOutput
  match isolated source (opened.connect 1 channel) with
  | (.done, ran) =>
      let (input, fed) :=
        { ran with channels := session.channels }.openInput
          (ran.output session.outputs.size).data.toList
      let (outcome, ran) := isolated sink (fed.connect 0 input)
      (outcome, { ran with channels := session.channels })
  | (stop, ran) => (stop, { ran with channels := session.channels })

def wordsOf (inner : Command → Act) (session : Session) : Option (List Word) → List String × Session
  | none => (session.arguments, session)
  | some words => Expansion.fields (capture inner) session words

/-- Asks for the status of a command, which then may fail. -/
def asked (act : Act) : Act := fun session =>
  let (outcome, ran) := act { session with strict := false }
  (outcome, { ran with strict := session.strict })

def checked (act : Act) : Act := fun session =>
  match act session with
  | (.done, ran) =>
      if ran.strict && ran.status != 0 then (.exit ran.status, ran) else (.done, ran)
  | stop => stop

/-- How a command runs, when its parts can be run. -/
def step (inner : Command → Act) (command : Command) : Act := fun session =>
  match command with
  | .nothing => (.done, session)
  | .simple command => checked (simple inner command) session
  | .sequence first second => runAll inner [first, second] session
  | .both first second =>
      match asked (inner first) session with
      | (.done, ran) => if ran.status = 0 then inner second ran else (.done, ran)
      | stop => stop
  | .either first second =>
      match asked (inner first) session with
      | (.done, ran) => if ran.status = 0 then (.done, ran) else inner second ran
      | stop => stop
  | .negated body =>
      match asked (inner body) session with
      | (.done, ran) => (.done, ran.withStatus (if ran.status = 0 then 1 else 0))
      | stop => stop
  | .pipe source sink => checked (pipe (inner source) (inner sink)) session
  | .subshell body => checked (isolated (inner body)) session
  | .background body => (.done, session.postpone body)
  | .redirected body redirects => redirected inner redirects (inner body) session
  | .choice condition body other =>
      match asked (inner condition) session with
      | (.done, ran) =>
          if ran.status = 0 then inner body ran else inner other (ran.withStatus 0)
      | stop => stop
  | .repeated succeeds condition body =>
      loop succeeds (asked (inner condition)) (inner body) roundLimit 0 session
  | .forEach name words body =>
      let (values, session) := wordsOf inner session words
      forEach name (inner body) values (session.withStatus 0)
  | .byPattern subject branches =>
      let (text, session) := Expansion.text (capture inner) session subject
      firstFitting inner text branches session

def run : Nat → Command → Act
  | 0, _ => fun session => (.exit 2, session)
  | depth + 1, command => step (run depth) command

def depthLimit : Nat := 100000

end Evaluation

/-- Runs a script in a session, and then what it has put off. -/
def evaluate (script : List Char) : Act := fun session =>
  let inner := Evaluation.run Evaluation.depthLimit
  let (outcome, ran) := Evaluation.runScript inner script session
  (outcome, Evaluation.catchUp inner ran)

end PlatformBundle.Shell
