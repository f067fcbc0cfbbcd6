import PlatformBundle.Shell.Effect
import PlatformBundle.Shell.Format
import PlatformBundle.Text.Lines
/-!
Utilities that print: numbers, parts of paths, parts of texts; and the test of a condition.
-/

namespace PlatformBundle.Shell.TextUtility

def integersFrom (start step : Int) (count : Nat) : List Int :=
  (List.range count).map fun index => start + step * Int.ofNat index

def integers (first step last : Int) : List Int :=
  if step = 0 then []
  else
    let span := if 0 < step then last - first else first - last
    if span < 0 then [] else integersFrom first step (span.natAbs / step.natAbs + 1)

def numbers : Utility := fun disk _ arguments =>
  match arguments.map String.toInt? with
  | [some last] => Effect.lines disk ((integers 1 1 last).map toString)
  | [some first, some last] => Effect.lines disk ((integers first 1 last).map toString)
  | [some first, some step, some last] =>
      Effect.lines disk ((integers first step last).map toString)
  | _ => Effect.failing disk "seq: invalid argument" 1

def dropSeparators (text : List Char) : List Char := text.reverse.dropWhile (· == '/')

def directoryOf (text : String) : String :=
  match (dropSeparators text.toList).dropWhile (· != '/') with
  | [] => if text.toList.head? = some '/' then "/" else "."
  | above =>
      match above.dropWhile (· == '/') with
      | [] => "/"
      | kept => String.ofList kept.reverse

def nameOf (text : String) : String :=
  match (dropSeparators text.toList).takeWhile (· != '/') with
  | [] => if text.isEmpty then "" else "/"
  | name => String.ofList name.reverse

def withoutEnding (ending name : String) : String :=
  if ending.toList.isSuffixOf name.toList && ending != name then
    String.ofList (name.toList.take (name.length - ending.length))
  else name

def directory : Utility := fun disk _ arguments =>
  Effect.lines disk (arguments.map directoryOf)

def name : Utility := fun disk _ arguments =>
  match arguments with
  | [path, ending] => Effect.lines disk [withoutEnding ending (nameOf path)]
  | path :: _ => Effect.lines disk [nameOf path]
  | [] => Effect.failing disk "basename: missing operand" 1

def workdir : Utility := fun disk _ _ => Effect.lines disk ["/" ++ joinWith "/" disk.workdir]

def contentOf (tool : String) (input : List UInt8) (disk : Disk) (path : String) : Effect :=
  if path = "-" then Effect.printing disk input
  else match disk.read ⟨path⟩ with
    | .ok content => Effect.printing disk content.data.toList
    | .error cause => Effect.failing disk (tool ++ ": " ++ path ++ ": " ++ cause.text) 1

def inputOf (tool : String) (disk : Disk) (input : List UInt8) (operands : List String) : Effect :=
  if operands.isEmpty then Effect.printing disk input
  else Effect.each disk (contentOf tool input) operands

def concatenate : Utility := fun disk input arguments =>
  inputOf "cat" disk input (splitOptions arguments).2

def joined (lines : List (List UInt8)) : List UInt8 := lines.flatMap (· ++ [10])

/-- A count that is given as `-n 3`, as `-n3` or as `-3`. -/
def countAndOperands : List String → Nat × List String
  | "-n" :: count :: rest => (count.toNat?.getD 10, rest)
  | argument :: rest =>
      match argument.toList with
      | '-' :: 'n' :: digits => ((String.ofList digits).toNat?.getD 10, rest)
      | '-' :: digits =>
          match (String.ofList digits).toNat? with
          | some count => (count, rest)
          | none => (10, argument :: rest)
      | _ => (10, argument :: rest)
  | [] => (10, [])

def byteCount? : List String → Option (Nat × List String)
  | "-c" :: count :: rest => some (count.toNat?.getD 0, rest)
  | _ => none

def selected (tool : String) (select : {α : Type} → Nat → List α → List α) : Utility :=
  fun disk input arguments =>
    match byteCount? arguments with
    | some (count, ["/dev/zero"]) => Effect.printing disk (List.replicate count 0)
    | some (count, operands) =>
        let found := inputOf tool disk input operands
        { found with out := select count found.out }
    | none =>
        let (count, operands) := countAndOperands arguments
        let found := inputOf tool disk input operands
        { found with out := joined (select count (Text.streamPieces found.out)) }

def isBlankByte (b : UInt8) : Bool := b == 32 || (9 ≤ b && b ≤ 13)

def wordCount : Bool → List UInt8 → Nat
  | _, [] => 0
  | inside, b :: rest =>
      if isBlankByte b then wordCount false rest
      else (if inside then 0 else 1) + wordCount true rest

def count : Utility := fun disk input arguments =>
  let (options, operands) := splitOptions arguments
  let found := inputOf "wc" disk input operands
  let value :=
    if options.contains 'l' then found.out.count 10
    else if options.contains 'w' then wordCount false found.out
    else found.out.length
  let named := match operands with
    | [path] => [toString value, path]
    | _ => [toString value]
  { Effect.lines disk [joinWith " " named] with errors := found.errors, status := found.status }

def notAfter (first second : List UInt8) : Bool := !decide (second < first)

def sorted : Utility := fun disk input arguments =>
  let (options, operands) := splitOptions arguments
  let found := inputOf "sort" disk input operands
  let lines := (Text.streamPieces found.out).mergeSort notAfter
  let kept := if options.contains 'u' then lines.eraseDups else lines
  { found with out := joined (if options.contains 'r' then kept.reverse else kept) }

def bytesOfSet : List UInt8 → List UInt8
  | low :: 45 :: high :: rest =>
      (List.range (high.toNat + 1 - low.toNat)).map (fun step => low + UInt8.ofNat step) ++
        bytesOfSet rest
  | b :: rest => b :: bytesOfSet rest
  | [] => []

def setOf (text : String) : List UInt8 := bytesOfSet (Format.escaped text).1

/-- The byte that stands at the place of another; the last one stands for all that are missing. -/
def counterpart (source target : List UInt8) (b : UInt8) : UInt8 :=
  match source.findIdx? (· == b) with
  | some position => (target[position]? <|> target.getLast?).getD b
  | none => b

def transliterated : Utility := fun disk input arguments =>
  match arguments with
  | ["-d", set] => Effect.printing disk (input.filter fun b => !(setOf set).contains b)
  | [source, target] =>
      Effect.printing disk (input.map (counterpart (setOf source) (setOf target)))
  | _ => Effect.failing disk "tr: missing operand" 1

/-! ## Conditions -/

def isLink (disk : Disk) (path : String) : Bool :=
  match disk.locate false ⟨path⟩ with
  | .ok (.present _ (.link _)) => true
  | _ => false

def hasContent (disk : Disk) (path : String) : Bool :=
  match disk.stat ⟨path⟩ with
  | .ok (_, .file content _) => content.size != 0
  | .ok _ => true
  | .error _ => false

def mayRun (disk : Disk) (path : String) : Bool :=
  match disk.stat ⟨path⟩ with
  | .ok (_, .file _ executable) => executable
  | .ok _ => true
  | .error _ => false

def unary (disk : Disk) (operator operand : String) : Option Bool :=
  match operator with
  | "-n" => some (!operand.isEmpty)
  | "-z" => some operand.isEmpty
  | "-f" => some (disk.isFile ⟨operand⟩)
  | "-d" => some (disk.isDirectory ⟨operand⟩)
  | "-e" | "-r" | "-w" => some (disk.exists? ⟨operand⟩)
  | "-x" => some (mayRun disk operand)
  | "-s" => some (hasContent disk operand)
  | "-h" | "-L" => some (isLink disk operand)
  | _ => none

def compared (relation : Int → Int → Bool) (first second : String) : Option Bool :=
  match first.toInt?, second.toInt? with
  | some a, some b => some (relation a b)
  | _, _ => none

def binary (operator first second : String) : Option Bool :=
  match operator with
  | "=" | "==" => some (first == second)
  | "!=" => some (first != second)
  | "-eq" => compared (fun a b => a == b) first second
  | "-ne" => compared (fun a b => a != b) first second
  | "-lt" => compared (fun a b => decide (a < b)) first second
  | "-le" => compared (fun a b => decide (a ≤ b)) first second
  | "-gt" => compared (fun a b => decide (b < a)) first second
  | "-ge" => compared (fun a b => decide (b ≤ a)) first second
  | _ => none

/-- Whether a condition holds; there is no answer to one that is not well formed. -/
def condition (disk : Disk) : List String → Option Bool
  | [] => some false
  | [text] => some (!text.isEmpty)
  | ["!", text] => some text.isEmpty
  | [operator, operand] => unary disk operator operand
  | ["!", operator, operand] => (unary disk operator operand).map (!·)
  | [first, operator, second] => binary operator first second
  | "!" :: rest => (condition disk rest).map (!·)
  | first :: operator :: second :: "-a" :: rest =>
      match binary operator first second, condition disk rest with
      | some a, some b => some (a && b)
      | _, _ => none
  | first :: operator :: second :: "-o" :: rest =>
      match binary operator first second, condition disk rest with
      | some a, some b => some (a || b)
      | _, _ => none
  | operator :: operand :: "-a" :: rest =>
      match unary disk operator operand, condition disk rest with
      | some a, some b => some (a && b)
      | _, _ => none
  | operator :: operand :: "-o" :: rest =>
      match unary disk operator operand, condition disk rest with
      | some a, some b => some (a || b)
      | _, _ => none
  | _ => none

def test : Utility := fun disk _ arguments =>
  match condition disk arguments with
  | some true => Effect.quiet disk
  | some false => Effect.withStatus disk 1
  | none => Effect.withStatus disk 2

def bracketed : Utility := fun disk input arguments =>
  if arguments.getLast? = some "]" then test disk input arguments.dropLast
  else Effect.withStatus disk 2

end PlatformBundle.Shell.TextUtility
