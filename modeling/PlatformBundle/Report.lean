import PlatformBundle.BundleConfig
import PlatformBundle.Json.Reader
import PlatformBundle.Text.Blank
/-!
The report that the bundling tool prints as JSON. Its errors become messages, and a message that
mentions the staged path of an entry is attributed to the input file behind that entry.
-/

namespace PlatformBundle.Report

/-- An error is a text, or an object with a message and perhaps the name of a module. -/
def errorText (error : Json) : String :=
  match error with
  | .string message => message
  | .object _ =>
      let message := ((error.member? "message").bind Json.string?).getD "unknown error"
      match (error.member? "moduleName").bind Json.string? with
      | some name => "ERROR in " ++ name ++ "\n" ++ message
      | none => message
  | other => other.compactText

def errors (report : Json) : List Json :=
  match report.member? "errors" with
  | some (.array errors) => errors
  | _ => []

def messages (printed : String) : Except Fault (List String) :=
  match Json.read (Text.trim printed.toList) with
  | some report => .ok ((errors report).map errorText)
  | none => .error .json

def mentions (message stagedPath : String) : Bool :=
  Text.occursIn (packagesDir ++ "/" ++ stagedPath).toList message.toList

def sourcePathOf (stagedPath : String) : Option String := do
  let (directory, file) ← Text.cutFirst '/' stagedPath.toList
  match (StagingName.parse (String.ofList directory)).bind StagingName.toIdentity with
  | .ok package => some (package.nameOrEmpty ++ "/" ++ String.ofList file)
  | .error _ => none

def attributed (config : BundleConfig) (message : String) : Diagnostic where
  message
  sourcePath := (config.entry.keys.find? (mentions message)).bind sourcePathOf

def diagnostics (config : BundleConfig) (messages : List String) : List Diagnostic :=
  messages.map (attributed config)

end PlatformBundle.Report
