/-!
Lines of output: those that a tool prints while it runs, and those of the log.
-/

namespace PlatformBundle

inductive OutputStream where
  | stdout
  | stderr
  deriving DecidableEq

structure ToolLine where
  tool : String
  stream : OutputStream
  line : String
  deriving DecidableEq

inductive LogLevel where
  | error
  | warn
  | info
  | trace
  deriving DecidableEq

structure LogRecord where
  level : LogLevel
  message : String
  deriving DecidableEq

def LogLevel.label : LogLevel → String
  | .error => "ERROR"
  | .warn => "WARN"
  | .info => "INFO"
  | .trace => "TRACE"

def LogRecord.text (record : LogRecord) : String := record.level.label ++ " " ++ record.message

def ToolLine.logged (line : ToolLine) : LogRecord :=
  match line.stream with
  | .stdout => ⟨.trace, "[" ++ line.tool ++ "] " ++ line.line⟩
  | .stderr => ⟨.trace, "[" ++ line.tool ++ " stderr] " ++ line.line⟩

end PlatformBundle
