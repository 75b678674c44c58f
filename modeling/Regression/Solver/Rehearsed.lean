import Regression.Duration
import Regression.Solver.Scripted

/-!
# Rehearsed solvers

A rehearsed solver plays back the recorded output of a process for some queries, and leaves the
others to a scripted solver. It may call for an end of the asking after a number of queries.
-/

namespace Regression

/-- What a process wrote, the code with which it ended, and the time that it took. -/
structure ProcessOutput where
  output : String
  exit : Option Int := some 0
  duration : Duration := .zero
  deriving DecidableEq, Repr, Inhabited

structure RehearsedSolver where
  outputs : List (QueryPattern × ProcessOutput) := []
  scripted : ScriptedSolver := {}
  /-- Nothing more is asked when so many queries have been answered. -/
  cancelAfter : Option Nat := none
  deriving Repr

namespace RehearsedSolver

/-- The recorded output for a query. -/
def output? (s : RehearsedSolver) (q : Query) : Option ProcessOutput :=
  (s.outputs.find? (·.1.covers q)).map (·.2)

/-- The time that the answer to a query takes. -/
def duration (s : RehearsedSolver) (q : Query) : Duration :=
  match s.output? q with
  | some process => process.duration
  | none => .zero

/-- Whether a query gets no answer before it is cancelled. -/
def stalls (s : RehearsedSolver) (q : Query) : Bool :=
  (s.output? q).isNone && s.scripted.reaction q = .stall

def answer (s : RehearsedSolver) (q : Query) : Except Failure Answer :=
  match s.output? q with
  | some process =>
    match Answer.parse process.output process.exit with
    | .ok answer => .ok answer
    | .error fault => .error (.solver fault)
  | none => (s.scripted.reaction q).answer

/-- A solver program that plays back outputs and answers `unsat` to all other queries. -/
def program (outputs : List (QueryPattern × ProcessOutput)) : RehearsedSolver :=
  { outputs := outputs ++ [({}, { output := "unsat\n" })] }

end RehearsedSolver

end Regression
