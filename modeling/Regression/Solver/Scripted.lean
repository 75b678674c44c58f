import Regression.Solver.Query

/-!
# Scripted solvers

A solver that answers from a table of rules instead of deciding anything. It replays recorded
answers and shows how an analysis reacts to a certain behaviour.
-/

namespace Regression

/-- What a rule does with a query. -/
inductive Reaction where
  | status (status : Status)
  | timeout
  | fail (message : String)
  /-- No answer before the query is cancelled. -/
  | stall
  deriving DecidableEq, Repr, Inhabited

/-- Which queries a rule is for: those of a kind whose script contains a text. -/
structure QueryPattern where
  kind : Option QueryKind := none
  contains : Option String := none
  deriving Repr

def QueryPattern.covers (p : QueryPattern) (q : Query) : Bool :=
  p.kind.all (· = q.kind) && p.contains.all (Text.occursIn · q.script)

structure ScriptedSolver where
  rules : List (QueryPattern × Reaction) := []
  otherwise : Status := .sat
  deriving Repr

namespace ScriptedSolver

/-- What the solver calls itself. -/
def name : String := "scripted"

/-- The first rule that covers the query decides. -/
def reaction (s : ScriptedSolver) (q : Query) : Reaction :=
  match s.rules.find? (·.1.covers q) with
  | some (_, reaction) => reaction
  | none => .status s.otherwise

end ScriptedSolver

/-- The answer to a query that is cancelled when it stalls. -/
def Reaction.answer : Reaction → Except Failure Answer
  | .status .sat => .ok (.sat none)
  | .status .unsat => .ok .unsat
  | .status .unknown => .ok (.unknown "solver returned unknown")
  | .timeout => .ok (.unknown "timeout")
  | .fail message => .error (.solver (.announced message))
  | .stall => .error .cancelled

end Regression
