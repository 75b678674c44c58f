/-!
# Classifications and answers

The verdicts that partitions, iterations and runs receive, and the three answers of a solver.
-/

namespace Regression

/-- The answer to one satisfiability check. -/
inductive Status where
  | sat
  | unsat
  /-- The solver ran out of time, or its procedure is incomplete. -/
  | unknown
  deriving DecidableEq, Repr, Inhabited

namespace Status

def all : List Status := [.sat, .unsat, .unknown]

def name : Status → String
  | .sat => "sat"
  | .unsat => "unsat"
  | .unknown => "unknown"

def ofName? (name : String) : Option Status := all.find? (·.name = name)

end Status

inductive Classification where
  /-- The analysis left no output at all. -/
  | missing
  /-- The program to analyse does not exist. -/
  | baseToolMissing
  | error
  | timeout
  /-- No input takes this path. -/
  | unreachable
  | unknown
  | depthLimited
  | maybeNeq
  | maybeEq
  | neq
  | eq
  deriving DecidableEq, Repr, Inhabited

namespace Classification

def all : List Classification :=
  [.missing, .baseToolMissing, .error, .timeout, .unreachable, .unknown, .depthLimited, .maybeNeq,
    .maybeEq, .neq, .eq]

def name : Classification → String
  | .missing => "MISSING"
  | .baseToolMissing => "BASE_TOOL_MISSING"
  | .error => "ERROR"
  | .timeout => "TIMEOUT"
  | .unreachable => "UNREACHABLE"
  | .unknown => "UNKNOWN"
  | .depthLimited => "DEPTH_LIMITED"
  | .maybeNeq => "MAYBE_NEQ"
  | .maybeEq => "MAYBE_EQ"
  | .neq => "NEQ"
  | .eq => "EQ"

def ofName? (name : String) : Option Classification := all.find? (·.name = name)

/-- No refinement follows a final classification. -/
def isFinal : Classification → Bool
  | .eq | .neq | .error => true
  | _ => false

/-- Describes a whole run without input or output, never a partition. -/
def isRunLevelOnly : Classification → Bool
  | .missing | .baseToolMissing => true
  | _ => false

/-- A partition with such a classification needs no refinement. -/
def isConclusive : Classification → Bool
  | .eq | .neq | .unreachable => true
  | _ => false

end Classification

end Regression
