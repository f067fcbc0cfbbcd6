import PlatformBundle.BundleConfig
import PlatformBundle.Process
/-!
Finding the program of a tool. A program that the settings name has to be a file. Without one the
staging root's own copy comes first, then the search path.
-/

namespace PlatformBundle.ToolSearch

def stagedProgram (root : Path) (tool : String) : Path := root / modulesDir / ".bin" / tool

def notConfigured (tool : String) (path : Path) : Fault :=
  .toolNotFound tool ("configured path " ++ path.text ++ " does not exist")

def notInstalled (tool : String) : Fault :=
  .toolNotFound tool
    ("install it or set `program` under [bundler." ++ tool ++ "] in the settings file")

def onSearchPath (host : Host) (disk : Disk) (tool : String) : Except Fault Path :=
  match host.which disk tool with
  | some path => .ok path
  | none => .error (notInstalled tool)

/-- The program of a tool; `root` is given for tools that a staging root may hold. -/
def resolve (host : Host) (disk : Disk) (tool : String) (configured : Option Path)
    (root : Option Path) : Except Fault Path :=
  match configured with
  | some path => if disk.isFile path then .ok path else .error (notConfigured tool path)
  | none =>
      match root.map (stagedProgram · tool) with
      | some path => if disk.isFile path then .ok path else onSearchPath host disk tool
      | none => onSearchPath host disk tool

end PlatformBundle.ToolSearch
