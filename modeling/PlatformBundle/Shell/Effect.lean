import PlatformBundle.Disk.Operations
/-!
What a utility does: it is given a disk, the text on its input and its arguments, and leaves a
disk, the bytes that it prints, the complaints that it prints as lines of the error stream, and
a status.
-/

namespace PlatformBundle.Shell

structure Effect where
  disk : Disk
  out : List UInt8
  errors : List String
  status : Nat

abbrev Utility := Disk → List UInt8 → List String → Effect

namespace Effect

def quiet (disk : Disk) : Effect := ⟨disk, [], [], 0⟩

def withStatus (disk : Disk) (status : Nat) : Effect := ⟨disk, [], [], status⟩

def printing (disk : Disk) (bytes : List UInt8) : Effect := ⟨disk, bytes, [], 0⟩

def bytesOfText (text : String) : List UInt8 := text.toUTF8.data.toList

def lines (disk : Disk) (texts : List String) : Effect :=
  printing disk (texts.flatMap fun text => bytesOfText text ++ [10])

def failing (disk : Disk) (error : String) (status : Nat) : Effect := ⟨disk, [], [error], status⟩

/-- One effect after another; the worse status counts. -/
def andThen (first : Effect) (second : Disk → Effect) : Effect :=
  let later := second first.disk
  { disk := later.disk
    out := first.out ++ later.out
    errors := first.errors ++ later.errors
    status := max first.status later.status }

def each (disk : Disk) (deed : Disk → String → Effect) : List String → Effect
  | [] => quiet disk
  | text :: rest => (deed disk text).andThen fun disk => each disk deed rest

def ofResult (result : DiskResult Unit) (complaint : IoCause → String) : Effect :=
  match result with
  | (.ok (), disk) => quiet disk
  | (.error cause, disk) => failing disk (complaint cause) 1

end Effect

def splitOptions : List String → List Char × List String
  | [] => ([], [])
  | "--" :: rest => ([], rest)
  | argument :: rest =>
      match argument.toList with
      | '-' :: c :: letters =>
          let (others, operands) := splitOptions rest
          (c :: letters ++ others, operands)
      | _ => ([], argument :: rest)

def inQuotes (text : String) : String := "'" ++ text ++ "'"

end PlatformBundle.Shell
