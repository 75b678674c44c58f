import Regression.Classification

/-!
# Classifications of iterations and runs

An iteration takes the least certain classification of its partitions, those aside whose path is
not taken. A failure or an expired watchdog overrides them. A run is classified as its last
iteration is.
-/

namespace Regression

/-- The place in the order of dominance; the smaller one dominates. -/
def Classification.dominance : Classification → Nat
  | .missing => 0
  | .baseToolMissing => 1
  | .error => 2
  | .timeout => 3
  | .neq => 4
  | .maybeNeq => 5
  | .depthLimited => 6
  | .unknown => 7
  | .maybeEq => 8
  | .eq => 9
  | .unreachable => 255

/-- The classification that dominates another one. -/
def Classification.stronger (a b : Classification) : Classification :=
  if b.dominance < a.dominance then b else a

/-- The dominating classification of some partitions; `unknown` if no path is taken. -/
def foldPartitions (classes : List Classification) : Classification :=
  match classes.filter (· ≠ .unreachable) with
  | [] => .unknown
  | first :: rest => rest.foldl Classification.stronger first

/-- What went wrong with a whole iteration. -/
structure IterationFlags where
  isError : Bool := false
  isTimeout : Bool := false
  deriving DecidableEq, Repr

def classifyIteration (classes : List Classification) (flags : IterationFlags) : Classification :=
  if flags.isError then .error else if flags.isTimeout then .timeout else foldPartitions classes

/-- A run without iterations left no output. -/
def classifyRun (iterations : List Classification) : Classification :=
  iterations.getLast?.getD .missing

/-! ## After an iteration -/

/-- Why a run stopped. -/
inductive StopReason where
  | final (result : Classification)
  | nothingLeftToRefine
  /-- The tool never refines. -/
  | singleIteration
  | timedOut
  | refinementFailed (error : String)
  /-- The program to analyse does not exist; nothing was done. -/
  | baseToolMissing
  deriving DecidableEq, Repr

def StopReason.display : StopReason → String
  | .final result => "final classification " ++ result.name
  | .nothingLeftToRefine => "nothing left to refine"
  | .singleIteration => "tool does not refine"
  | .timedOut => "timed out"
  | .refinementFailed error => "refinement failed: " ++ error
  | .baseToolMissing => "input missing"

/-- Why a run stops after an iteration with this result, or `none` if it refines. -/
def stopAfter? (result : Classification) (canIterate : Bool) : Option StopReason :=
  if result.isFinal then some (.final result)
  else if !canIterate then some .singleIteration
  else none

end Regression
