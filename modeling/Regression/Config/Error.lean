import Regression.Files
import Regression.Tool
import Regression.Number.Notation

/-!
# Refused configurations
-/

namespace Regression

inductive ConfigError where
  /-- A number outside its interval. The texts are those of the numbers. -/
  | outOfRange (field value low high hint : String)
  | invertedBounds (field low high : String)
  | unsupportedVersion (found : UInt32)
  | unknownName (e : UnknownName)
  | unreadable (message : String)
  | malformed
  | noSolver
  deriving DecidableEq, Repr

namespace ConfigError

def message : ConfigError → String
  | .outOfRange field value low high hint =>
    "'" ++ field ++ "' = " ++ value ++ " is outside " ++ low ++ "..=" ++ high ++ ": " ++ hint
  | .invertedBounds field low high => "'" ++ field ++ "' has min " ++ low ++ " above max " ++ high
  | .unsupportedVersion found =>
    "configuration version " ++ toString found.toNat ++ " is not supported (expected 1)"
  | .unknownName e => e.message
  | .unreadable message => "cannot read configuration: " ++ message
  | .malformed => "malformed configuration"
  | .noSolver => "solver.binary must name an executable"

/-- The field that a number was given for. -/
def field? : ConfigError → Option String
  | .outOfRange field .. | .invertedBounds field .. => some field
  | _ => none

end ConfigError

end Regression
