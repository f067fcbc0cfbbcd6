/-!
The language of the shell, as it is once it has been read: words with what is to be put in place
of their parts, redirections, and commands.
-/

namespace PlatformBundle.Shell

/-- A part of a word. What stands quoted is not cut into fields, and no pattern is seen in it. -/
inductive Part where
  | text (chars : List Char) (quoted : Bool)
  | parameter (name : String) (quoted : Bool)
  /-- What a script prints. -/
  | output (script : List Char) (quoted : Bool)
  /-- The value of a sum. -/
  | sum (expression : List Char) (quoted : Bool)
  deriving DecidableEq

abbrev Word := List Part

namespace Word

def bare? : Word → Option (List Char)
  | [.text chars false] => some chars
  | _ => none

def hasOutput (word : Word) : Bool :=
  word.any fun part =>
    match part with
    | .output _ _ => true
    | _ => false

end Word

inductive RedirectKind where
  | write
  | append
  | read
  | duplicate
  deriving DecidableEq

structure Redirect where
  descriptor : Nat
  kind : RedirectKind
  target : Word

structure SimpleCommand where
  line : Nat
  assignments : List (String × Word)
  words : List Word
  redirects : List Redirect

inductive Command where
  | nothing
  | simple (command : SimpleCommand)
  | sequence (first second : Command)
  | both (first second : Command)
  | either (first second : Command)
  | negated (body : Command)
  | pipe (source sink : Command)
  | subshell (body : Command)
  /-- A command that the next one does not wait for. -/
  | background (body : Command)
  | redirected (body : Command) (redirects : List Redirect)
  | choice (condition body other : Command)
  /-- A loop that goes on while its condition succeeds, or while it fails. -/
  | repeated (succeeds : Bool) (condition body : Command)
  /-- A loop over words, or over the arguments of the script. -/
  | forEach (name : String) (words : Option (List Word)) (body : Command)
  | byPattern (subject : Word) (branches : List (List Word × Command))

structure SyntaxFault where
  line : Nat
  text : String
  deriving DecidableEq

end PlatformBundle.Shell
