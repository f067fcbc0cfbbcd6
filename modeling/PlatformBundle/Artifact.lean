/-!
What the host gets back for an input file.
-/

namespace PlatformBundle

/-- The output for one input file; a file whose code lives on elsewhere has no code of its own. -/
structure Artifact where
  path : String
  data : String
  /-- The path of the input file in reports to the user. -/
  sourcePath : String
  sourceMap : Option String
  deriving DecidableEq

def Artifact.isEmpty (artifact : Artifact) : Bool := artifact.data.isEmpty

end PlatformBundle
