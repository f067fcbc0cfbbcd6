import PlatformBundle.Shell.Command
import PlatformBundle.Text.Pieces
/-!
Cutting a script into tokens. Quotes, parameters and substitutions are found here; a substitution
keeps its text, which is read when it is expanded. The fuel of the readers is the length of the
text: each step takes at least one character.
-/

namespace PlatformBundle.Shell

inductive Token where
  | word (word : Word)
  | sign (text : String)
  | redirect (descriptor : Nat) (kind : RedirectKind)
  /-- The text cannot be cut any further. -/
  | broken (text : String)

structure PlacedToken where
  token : Token
  line : Nat

namespace Token

def unterminated : String := "Unterminated quoted string"

def endsWord (c : Char) : Bool := " \t\n;&|()<>".toList.contains c

def isNameStart (c : Char) : Bool := c.isAlpha || c == '_'

def isNameChar (c : Char) : Bool := c.isAlphanum || c == '_'

def isSpecial (c : Char) : Bool := "@*#?$!-0123456789".toList.contains c

inductive Within where
  | plain
  | single
  | double

def keep (kept : List Char) (found : Option (List Char × List Char)) :
    Option (List Char × List Char) :=
  found.map fun (text, rest) => (kept ++ text, rest)

def untilClosed : Nat → Within → List Char → Option (List Char × List Char)
  | _, _, [] => none
  | depth, .single, c :: rest =>
      keep [c] (untilClosed depth (if c = '\'' then .plain else .single) rest)
  | _, _, ['\\'] => none
  | depth, within, '\\' :: c :: rest => keep ['\\', c] (untilClosed depth within rest)
  | depth, .double, c :: rest =>
      keep [c] (untilClosed depth (if c = '"' then .plain else .double) rest)
  | depth, .plain, c :: rest =>
      match c, depth with
      | ')', 0 => some ([], rest)
      | ')', above + 1 => keep [c] (untilClosed above .plain rest)
      | '(', _ => keep [c] (untilClosed (depth + 1) .plain rest)
      | '\'', _ => keep [c] (untilClosed depth .single rest)
      | '"', _ => keep [c] (untilClosed depth .double rest)
      | _, _ => keep [c] (untilClosed depth .plain rest)

/-- The text up to the next backquote; a backslash takes the meaning from three characters. -/
def untilBackquote : List Char → Option (List Char × List Char)
  | [] => none
  | '\x60' :: rest => some ([], rest)
  | '\\' :: c :: rest =>
      keep (if c = '\x60' || c = '\\' || c = '$' then [c] else ['\\', c]) (untilBackquote rest)
  | c :: rest => keep [c] (untilBackquote rest)

/-- A sum stands in a second pair of parentheses. -/
def substitution (quoted : Bool) (text : List Char) : Part :=
  match text with
  | '(' :: inner =>
      if inner.getLast? = some ')' then .sum inner.dropLast quoted else .output text quoted
  | _ => .output text quoted

def afterDollar (quoted : Bool) : List Char → Option (Part × List Char)
  | '(' :: rest =>
      (untilClosed 0 .plain rest).map fun (text, rest) => (substitution quoted text, rest)
  | '{' :: rest =>
      (Text.cutFirst '}' rest).map fun (name, rest) =>
        (.parameter (String.ofList name) quoted, rest)
  | c :: rest =>
      if isSpecial c then some (.parameter (String.ofList [c]) quoted, rest)
      else if isNameStart c then
        let (name, rest) := (c :: rest).span isNameChar
        some (.parameter (String.ofList name) quoted, rest)
      else some (.text ['$'] quoted, c :: rest)
  | [] => some (.text ['$'] quoted, [])

/-- Puts a part in front of a word; text joins text of its kind. -/
def addPart : Part → Word → Word
  | .text chars quoted, .text more alike :: rest =>
      if quoted = alike then .text (chars ++ more) quoted :: rest
      else .text chars quoted :: .text more alike :: rest
  | part, others => part :: others

def before (parts : List Part) (found : Option (Word × List Char)) : Option (Word × List Char) :=
  found.map fun (others, rest) => (parts.foldr addPart others, rest)

def doubleQuoted : Nat → List Char → Option (Word × List Char)
  | 0, _ => none
  | _, [] => none
  | _ + 1, '"' :: rest => some ([], rest)
  | fuel + 1, '\\' :: '\n' :: rest => doubleQuoted fuel rest
  | fuel + 1, '\\' :: c :: rest =>
      let text := if "$\x60\"\\".toList.contains c then [c] else ['\\', c]
      before [.text text true] (doubleQuoted fuel rest)
  | fuel + 1, '$' :: rest =>
      match afterDollar true rest with
      | some (part, rest) => before [part] (doubleQuoted fuel rest)
      | none => none
  | fuel + 1, '\x60' :: rest =>
      match untilBackquote rest with
      | some (text, rest) => before [.output text true] (doubleQuoted fuel rest)
      | none => none
  | fuel + 1, c :: rest => before [.text [c] true] (doubleQuoted fuel rest)

/-- Double quotes around nothing are an empty text, not nothing. -/
def orEmptyText (parts : Word) : Word := if parts.isEmpty then [.text [] true] else parts

def readWord : Nat → List Char → Option (Word × List Char)
  | 0, _ => none
  | _, [] => some ([], [])
  | fuel + 1, '\\' :: '\n' :: rest => readWord fuel rest
  | fuel + 1, '\\' :: c :: rest => before [.text [c] true] (readWord fuel rest)
  | fuel + 1, '\'' :: rest =>
      match Text.cutFirst '\'' rest with
      | some (text, rest) => before [.text text true] (readWord fuel rest)
      | none => none
  | fuel + 1, '"' :: rest =>
      match doubleQuoted fuel rest with
      | some (parts, rest) => before (orEmptyText parts) (readWord fuel rest)
      | none => none
  | fuel + 1, '$' :: rest =>
      match afterDollar false rest with
      | some (part, rest) => before [part] (readWord fuel rest)
      | none => none
  | fuel + 1, '\x60' :: rest =>
      match untilBackquote rest with
      | some (text, rest) => before [.output text false] (readWord fuel rest)
      | none => none
  | fuel + 1, c :: rest =>
      if endsWord c then some ([], c :: rest)
      else before [.text [c] false] (readWord fuel rest)

def readRedirect (descriptor : Option Nat) : List Char → Option (Token × List Char)
  | '>' :: '>' :: rest => some (.redirect (descriptor.getD 1) .append, rest)
  | '>' :: '&' :: rest => some (.redirect (descriptor.getD 1) .duplicate, rest)
  | '>' :: '|' :: rest => some (.redirect (descriptor.getD 1) .write, rest)
  | '>' :: rest => some (.redirect (descriptor.getD 1) .write, rest)
  | '<' :: '&' :: rest => some (.redirect (descriptor.getD 0) .duplicate, rest)
  | '<' :: rest => some (.redirect (descriptor.getD 0) .read, rest)
  | _ => none

def readSign : List Char → Option (Token × List Char)
  | '&' :: '&' :: rest => some (.sign "&&", rest)
  | '|' :: '|' :: rest => some (.sign "||", rest)
  | ';' :: ';' :: rest => some (.sign ";;", rest)
  | '\n' :: rest => some (.sign "\n", rest)
  | c :: rest => if ";&|()".toList.contains c then some (.sign (String.ofList [c]), rest) else none
  | [] => none

def digit? (c : Char) : Option Nat := if c.isDigit then some (c.toNat - 48) else none

def readToken (text : List Char) : Token × List Char :=
  let numbered := match text with
    | c :: rest => (digit? c).bind fun d => readRedirect (some d) rest
    | [] => none
  match numbered <|> readRedirect none text <|> readSign text with
  | some found => found
  | none =>
      match readWord (text.length + 1) text with
      | some (parts, rest) => (.word parts, rest)
      | none => (.broken unterminated, [])

/-- How many lines end within the front of a text, up to where `rest` begins. -/
def linesBefore (text rest : List Char) : Nat :=
  (text.take (text.length - rest.length)).count '\n'

def tokensFrom : Nat → Nat → List Char → List PlacedToken
  | 0, _, _ => []
  | _, _, [] => []
  | fuel + 1, line, '\\' :: '\n' :: rest => tokensFrom fuel (line + 1) rest
  | fuel + 1, line, c :: rest =>
      if c = ' ' || c = '\t' then tokensFrom fuel line rest
      else if c = '#' then tokensFrom fuel line (rest.dropWhile (· != '\n'))
      else
        let (token, after) := readToken (c :: rest)
        ⟨token, line⟩ :: tokensFrom fuel (line + linesBefore (c :: rest) after) after

end Token

def tokens (script : List Char) : List PlacedToken := Token.tokensFrom (script.length + 1) 1 script

end PlatformBundle.Shell
