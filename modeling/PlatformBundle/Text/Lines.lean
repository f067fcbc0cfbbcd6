import PlatformBundle.Text.Utf8
/-!
The lines of a byte stream. A newline ends a line and a last line may go without one; each line is
read as UTF-8 on its own, and carriage returns and newlines at its end are dropped.
-/

namespace PlatformBundle.Text

/-- The stretches of a stream between its newlines; nothing follows a newline that ends it. -/
def streamPieces : List UInt8 → List (List UInt8)
  | [] => []
  | b :: rest =>
      if b = 10 then [] :: streamPieces rest
      else match streamPieces rest with
        | [] => [[b]]
        | first :: others => (b :: first) :: others

def takeLine : List UInt8 → List UInt8 × List UInt8
  | [] => ([], [])
  | b :: rest =>
      if b = 10 then ([b], rest)
      else
        let (line, left) := takeLine rest
        (b :: line, left)

def isLineEnd (c : Char) : Bool := c == '\n' || c == '\r'

def dropLineEnd (text : List Char) : List Char := (text.reverse.dropWhile isLineEnd).reverse

def lineText (line : List UInt8) : String := String.ofList (dropLineEnd (decodeLossy line))

def nextLine (bytes : List UInt8) : Option (String × List UInt8) :=
  match takeLine bytes with
  | ([], _) => none
  | (line, left) => some (lineText line, left)

def lastOf {α : Type} (count : Nat) (items : List α) : List α := items.drop (items.length - count)

end PlatformBundle.Text
