import PlatformBundle.Json.Term
/-!
Reading JSON, one character at a time. The reader is a machine with a stack of the arrays and
objects that are still open; `step` says what one character does to it, and a text is read when
all of its characters are accepted and the machine stands behind one whole value. Carriage return
and newline are treated alike in every state: a blank between tokens, an error inside a string.
-/

namespace PlatformBundle.Json

def isJsonBlank (c : Char) : Bool := c == ' ' || c == '\t' || c == '\n' || c == '\r'

/-- An array or object that waits for the value being read. -/
inductive Frame where
  | inArray (done : List Term)
  | inObject (done : List (List TextPiece × Term)) (key : List TextPiece)

inductive Role where
  | asValue
  | asKey (done : List (List TextPiece × Term))

/-- Where in a string the machine stands; `digits` counts what is left of a unit. -/
inductive InText where
  | plain
  | escaped
  | hex (digits : Nat) (code : Nat)

inductive NumberPart where
  | sign
  | zero
  | whole
  | point
  | fraction
  | mark
  | markSign
  | exponent

def NumberPart.isWhole : NumberPart → Bool
  | .zero | .whole | .fraction | .exponent => true
  | .sign | .point | .mark | .markSign => false

inductive Mode where
  | value
  | arrayStart
  | arrayNext (done : List Term)
  | objectStart
  | objectKey (done : List (List TextPiece × Term))
  | colon (done : List (List TextPiece × Term)) (key : List TextPiece)
  | objectNext (done : List (List TextPiece × Term))
  | text (role : Role) (read : List TextPiece) (inside : InText)
  | number (part : NumberPart) (text : NumberText)
  | word (left : List Char) (value : Term)
  | ended (value : Term)

/-- The machine: the lists it holds grow at the front, and so are in reverse. -/
structure Machine where
  mode : Mode
  frames : List Frame

namespace Machine

def deliver (value : Term) : List Frame → Machine
  | [] => ⟨.ended value, []⟩
  | .inArray done :: frames => ⟨.arrayNext (value :: done), frames⟩
  | .inObject done key :: frames => ⟨.objectNext ((key, value) :: done), frames⟩

def beginNumber (negative : Bool) (whole : List Nat) : NumberText := ⟨negative, whole, [], none⟩

def startValue (frames : List Frame) (c : Char) : Option Machine :=
  if c = '"' then some ⟨.text .asValue [] .plain, frames⟩
  else if c = '[' then some ⟨.arrayStart, frames⟩
  else if c = '\x7b' then some ⟨.objectStart, frames⟩
  else if c = '-' then some ⟨.number .sign (beginNumber true []), frames⟩
  else if c = '0' then some ⟨.number .zero (beginNumber false [0]), frames⟩
  else if c.isDigit then some ⟨.number .whole (beginNumber false [c.toNat - 48]), frames⟩
  else if c = 't' then some ⟨.word ['r', 'u', 'e'] (.bool true), frames⟩
  else if c = 'f' then some ⟨.word ['a', 'l', 's', 'e'] (.bool false), frames⟩
  else if c = 'n' then some ⟨.word ['u', 'l', 'l'] .null, frames⟩
  else none

def hexValue (c : Char) : Option Nat :=
  if c.isDigit then some (c.toNat - 48)
  else if 'a' ≤ c ∧ c ≤ 'f' then some (c.toNat - 87)
  else if 'A' ≤ c ∧ c ≤ 'F' then some (c.toNat - 55)
  else none

def shortEscape (c : Char) : Option Char :=
  if c = '"' ∨ c = '\\' ∨ c = '/' then some c
  else if c = 'b' then some '\x08'
  else if c = 'f' then some '\x0c'
  else if c = 'n' then some '\n'
  else if c = 'r' then some '\r'
  else if c = 't' then some '\t'
  else none

def closeText (role : Role) (read : List TextPiece) (frames : List Frame) : Machine :=
  match role with
  | .asValue => deliver (.string read.reverse) frames
  | .asKey done => ⟨.colon done read.reverse, frames⟩

def stepText (role : Role) (read : List TextPiece) (inside : InText) (frames : List Frame)
    (c : Char) : Option Machine :=
  match inside with
  | .plain =>
      if c = '"' then some (closeText role read frames)
      else if c = '\\' then some ⟨.text role read .escaped, frames⟩
      else if c.toNat < 0x20 then none
      else some ⟨.text role (.char c :: read) .plain, frames⟩
  | .escaped =>
      if c = 'u' then some ⟨.text role read (.hex 4 0), frames⟩
      else (shortEscape c).map (fun e => ⟨.text role (.char e :: read) .plain, frames⟩)
  | .hex digits code => do
      let value := code * 16 + (← hexValue c)
      if digits ≤ 1 then some ⟨.text role (.unit value :: read) .plain, frames⟩
      else some ⟨.text role read (.hex (digits - 1) value), frames⟩

def addWhole (text : NumberText) (c : Char) : NumberText :=
  { text with whole := text.whole ++ [c.toNat - 48] }

def addFraction (text : NumberText) (c : Char) : NumberText :=
  { text with fraction := text.fraction ++ [c.toNat - 48] }

def addExponent (text : NumberText) (c : Char) : NumberText :=
  match text.exponent with
  | none => { text with exponent := some (false, [c.toNat - 48]) }
  | some (negative, digits) =>
      { text with exponent := some (negative, digits ++ [c.toNat - 48]) }

def extendNumber (part : NumberPart) (text : NumberText) (c : Char) :
    Option (NumberPart × NumberText) :=
  let isMark := c == 'e' || c == 'E'
  match part with
  | .sign =>
      if c = '0' then some (.zero, addWhole text c)
      else if c.isDigit then some (.whole, addWhole text c)
      else none
  | .zero => if c = '.' then some (.point, text) else if isMark then some (.mark, text) else none
  | .whole =>
      if c.isDigit then some (.whole, addWhole text c)
      else if c = '.' then some (.point, text)
      else if isMark then some (.mark, text)
      else none
  | .point => if c.isDigit then some (.fraction, addFraction text c) else none
  | .fraction =>
      if c.isDigit then some (.fraction, addFraction text c)
      else if isMark then some (.mark, text)
      else none
  | .mark =>
      if c = '-' then some (.markSign, { text with exponent := some (true, []) })
      else if c = '+' then some (.markSign, { text with exponent := some (false, []) })
      else if c.isDigit then some (.exponent, addExponent text c)
      else none
  | .markSign => if c.isDigit then some (.exponent, addExponent text c) else none
  | .exponent => if c.isDigit then some (.exponent, addExponent text c) else none

def stepBetween (mode : Mode) (frames : List Frame) (c : Char) : Option Machine :=
  if isJsonBlank c then some ⟨mode, frames⟩
  else match mode with
    | .value => startValue frames c
    | .arrayStart =>
        if c = ']' then some (deliver (.array []) frames)
        else startValue (.inArray [] :: frames) c
    | .arrayNext done =>
        if c = ',' then some ⟨.value, .inArray done :: frames⟩
        else if c = ']' then some (deliver (.array done.reverse) frames)
        else none
    | .objectStart =>
        if c = '"' then some ⟨.text (.asKey []) [] .plain, frames⟩
        else if c = '\x7d' then some (deliver (.object []) frames)
        else none
    | .objectKey done =>
        if c = '"' then some ⟨.text (.asKey done) [] .plain, frames⟩ else none
    | .colon done key => if c = ':' then some ⟨.value, .inObject done key :: frames⟩ else none
    | .objectNext done =>
        if c = ',' then some ⟨.objectKey done, frames⟩
        else if c = '\x7d' then some (deliver (.object done.reverse) frames)
        else none
    | _ => none

def step (machine : Machine) (c : Char) : Option Machine :=
  match machine.mode with
  | .text role read inside => stepText role read inside machine.frames c
  | .number part text =>
      match extendNumber part text c with
      | some (part, text) => some ⟨.number part text, machine.frames⟩
      | none =>
          if part.isWhole then
            let done := deliver (.number text) machine.frames
            stepBetween done.mode done.frames c
          else none
  | .word [] _ => none
  | .word (w :: left) value =>
      if c ≠ w then none
      else if left.isEmpty then some (deliver value machine.frames)
      else some ⟨.word left value, machine.frames⟩
  | mode => stepBetween mode machine.frames c

def start : Machine := ⟨.value, []⟩

def result? (machine : Machine) : Option Term :=
  match machine.mode, machine.frames with
  | .ended value, [] => some value
  | .number part text, [] => if part.isWhole then some (.number text) else none
  | _, _ => none

end Machine

/-- Reads the form of a text and leaves its values unchecked. -/
def readTerm (text : List Char) : Option Term := do
  let machine ← text.foldlM Machine.step Machine.start
  machine.result?

def read (text : List Char) : Option Json := do
  let term ← readTerm text
  term.value?

end PlatformBundle.Json
