import PlatformBundle.Text.Word
/-!
Replacing a whole word in a text. A word stands where a boundary is on both sides of it, and a
boundary is a place with a word character on exactly one side. The text is read once from left to
right, and what was put in is not read again.
-/

namespace PlatformBundle.Text

/-- The place between two neighbours, either of which may be missing, is a boundary. -/
def isBoundary (before after : Option Char) : Bool := before.any isWord != after.any isWord

/-- The word stands at the start of `text`, and `before` is the character in front of it. -/
def standsHere (word : List Char) (before : Option Char) (text : List Char) : Bool :=
  word.isPrefixOf text && isBoundary before text.head? &&
    isBoundary word.getLast? (text.drop word.length).head?

-- `skip` counts the characters of the word just replaced that are still to be passed over.
def replaceFrom (word new : List Char) : Nat → Option Char → List Char → List Char
  | _, _, [] => []
  | skip + 1, _, c :: rest => replaceFrom word new skip (some c) rest
  | 0, before, c :: rest =>
      if standsHere word before (c :: rest) then
        new ++ replaceFrom word new (word.length - 1) (some c) rest
      else c :: replaceFrom word new 0 (some c) rest

def replaceWord (word new text : List Char) : List Char := replaceFrom word new 0 none text

end PlatformBundle.Text
