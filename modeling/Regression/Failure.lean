import Regression.Config.Error
import Regression.Malformed
import Regression.Store.Error

/-!
# Failures

Everything that can go wrong in an analysis, and the text that is shown for it.
-/

namespace Regression

/-- What is wrong with a solver or with its output. -/
inductive SolverFault where
  /-- The solver itself reported an error in this line. -/
  | reported (line : String)
  /-- There was no output; a process that was killed has no exit code. -/
  | noOutput (exit : Option Int)
  | unexpected (line : String)
  | notABlock
  | unreadableModel
  | cannotStart (binary : String) (cause : String)
  | notExecutable (binary : String)
  /-- A failure that was announced beforehand. -/
  | announced (message : String)
  deriving DecidableEq, Repr

namespace SolverFault

def message : SolverFault → String
  | .reported line => line
  | .noOutput (some code) =>
    "solver produced no output (exit status Some(" ++ toString code ++ "))"
  | .noOutput none => "solver produced no output (exit status None)"
  | .unexpected line => "unexpected solver output: " ++ line
  | .notABlock => "model is not a parenthesized block"
  | .unreadableModel => "unreadable model"
  | .cannotStart binary cause => "failed to spawn " ++ binary ++ ": " ++ cause
  | .notExecutable binary => "'" ++ binary ++ "' is not executable"
  | .announced message => message

end SolverFault

/-- Why an analysis failed outside of solver and store. -/
inductive AnalysisFault where
  /-- A partition came after one with the same or a larger index. -/
  | outOfOrder (index last : UInt32)
  | emptyTrace
  /-- No entry of the trace declares this unit. -/
  | notInTrace (unit : String)
  | notStarted
  /-- A failure reported by whoever explores or instruments the program. -/
  | reported (message : String)
  /-- There is no number for a further iteration. -/
  | iterationsExhausted
  /-- The clock ends before the time of the run does. -/
  | noDeadline
  deriving DecidableEq, Repr

namespace AnalysisFault

def message : AnalysisFault → String
  | .outOfOrder index last =>
    "partition " ++ toString index.toNat ++ " explored after partition " ++ toString last.toNat
  | .emptyTrace => "trace has no iterations"
  | .notInTrace unit => "'" ++ unit ++ "' is not abstracted in the trace"
  | .notStarted => "exploration has not been started"
  | .reported message => message
  | .iterationsExhausted => "no iteration number is left"
  | .noDeadline => "the deadline of the run cannot be represented"

end AnalysisFault

/-- What a results file lacks. -/
inductive ParseFault where
  | noOutputLine (block : String)
  | unknownOutput (line : String)
  /-- A fault found by another reader. -/
  | reported (message : String)
  deriving DecidableEq, Repr

namespace ParseFault

def message : ParseFault → String
  | .noOutputLine block => "no output line in '" ++ block ++ "'"
  | .unknownOutput line => "unable to classify output '" ++ line ++ "'"
  | .reported message => message

end ParseFault

/-- A fact that has to be known for a classification. -/
inductive Precondition where
  | neqStatus
  | eqStatus
  /-- The results file of a run that neither failed nor timed out. -/
  | results (path : String)
  /-- A fact that somebody else has to know. -/
  | reported (message : String)
  deriving DecidableEq, Repr

namespace Precondition

/-- The text for a fact that is not known. -/
def message : Precondition → String
  | .neqStatus => "reachable partition has no non-equivalence status"
  | .eqStatus =>
    "non-equivalence is sat under abstraction but no equivalence status was computed"
  | .results path => "'" ++ path ++ "' is missing but the run neither failed nor timed out"
  | .reported message => message

end Precondition

inductive Failure where
  | io (message : String)
  | solver (fault : SolverFault)
  | malformed (cause : Malformed)
  | precondition (missing : Precondition)
  | analysis (fault : AnalysisFault)
  /-- The query was given up because the run was stopped. -/
  | cancelled
  | parse (fault : ParseFault)
  | config (cause : ConfigError)
  | storage (cause : StorageError)
  /-- A text is not JSON, or not of the expected form. -/
  | json
  deriving DecidableEq, Repr

namespace Failure

def message : Failure → String
  | .io message => "IO error: " ++ message
  | .solver fault => "Solver error: " ++ fault.message
  | .malformed cause => "Malformed query: " ++ cause.message
  | .precondition missing => "Classification precondition violated: " ++ missing.message
  | .analysis fault => "Analysis error: " ++ fault.message
  | .cancelled => "Query cancelled"
  | .parse fault => "Parse error: " ++ fault.message
  | .config cause => "Configuration error: " ++ cause.message
  | .storage cause => "Storage error: " ++ cause.message
  | .json => "JSON error"

def ofFile (e : FileError) : Failure := .io e.message

end Failure

end Regression
