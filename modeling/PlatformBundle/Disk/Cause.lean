/-!
Why an operation on a disk or the start of a program failed.
-/

namespace PlatformBundle

inductive IoCause where
  | notFound
  | execFormat
  | permissionDenied
  | busy
  | fileExists
  | notDirectory
  | isDirectory
  | invalidArgument
  | nameTooLong
  | notEmpty
  | tooManyLinks
  | notText
  | nulInName
  | nulInProgram
  /-- A cause that some other part of the host reports in its own words. -/
  | other (text : String)
  deriving DecidableEq

namespace IoCause

/-- What went wrong, and the number of the error where the operating system has one for it. -/
def reason : IoCause → String × Option Nat
  | .notFound => ("No such file or directory", some 2)
  | .execFormat => ("Exec format error", some 8)
  | .permissionDenied => ("Permission denied", some 13)
  | .busy => ("Device or resource busy", some 16)
  | .fileExists => ("File exists", some 17)
  | .notDirectory => ("Not a directory", some 20)
  | .isDirectory => ("Is a directory", some 21)
  | .invalidArgument => ("Invalid argument", some 22)
  | .nameTooLong => ("File name too long", some 36)
  | .notEmpty => ("Directory not empty", some 39)
  | .tooManyLinks => ("Too many levels of symbolic links", some 40)
  | .notText => ("stream did not contain valid UTF-8", none)
  | .nulInName => ("file name contained an unexpected NUL byte", none)
  | .nulInProgram => ("nul byte found in provided data", none)
  | .other text => (text, none)

def text (cause : IoCause) : String := cause.reason.1

def message (cause : IoCause) : String :=
  match cause.reason with
  | (text, some number) => text ++ " (os error " ++ toString number ++ ")"
  | (text, none) => text

end IoCause

end PlatformBundle
