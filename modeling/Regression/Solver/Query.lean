import Regression.Script.Basic
import Regression.Solver.Model

/-!
# Queries and answers

Three questions can be asked about a partition: whether its path is taken at all, whether the
versions can differ there, and whether they can agree there.
-/

namespace Regression

inductive QueryKind where
  /-- Reachability: the path condition. -/
  | pc
  /-- The path condition, and different results. -/
  | neq
  /-- The path condition, and equal results. -/
  | eq
  deriving DecidableEq, Repr, Inhabited

namespace QueryKind

def all : List QueryKind := [.pc, .neq, .eq]

def name : QueryKind → String
  | .pc => "PC"
  | .neq => "NEQ"
  | .eq => "EQ"

def ofName? (name : String) : Option QueryKind := all.find? (·.name = name)

/-- The place in the order of asking. -/
def rank : QueryKind → Nat
  | .pc => 0
  | .neq => 1
  | .eq => 2

end QueryKind

/-- A self-contained script with its purpose. -/
structure Query where
  kind : QueryKind
  script : String
  deriving DecidableEq, Repr

/-- The query that asserts some conditions. -/
def Query.build (kind : QueryKind) (conditions : List Expr) (timeoutMs : UInt64) :
    Except Malformed Query := do
  return { kind, script := (← Script.ofAssertions conditions timeoutMs).text }

/-- Names a query within a run. -/
structure QueryKey where
  iteration : UInt32
  partition : UInt32
  kind : QueryKind
  deriving DecidableEq, Repr

namespace QueryKey

def stem (k : QueryKey) : String := "P" ++ toString k.partition.toNat ++ "-" ++ k.kind.name

def display (k : QueryKey) : String :=
  "iteration-" ++ toString k.iteration.toNat ++ "/" ++ k.stem

/-- By iteration, then partition, then in the order of asking. -/
def le (a b : QueryKey) : Bool :=
  a.iteration < b.iteration ||
    (a.iteration == b.iteration &&
      (a.partition < b.partition ||
        (a.partition == b.partition && a.kind.rank ≤ b.kind.rank)))

end QueryKey

structure Answer where
  status : Status
  model : Option Model := none
  /-- Why the answer is `unknown`. -/
  reason : Option String := none
  deriving DecidableEq, Repr

namespace Answer

def sat (model : Option Model) : Answer := { status := .sat, model }

def unsat : Answer := { status := .unsat }

def unknown (reason : String) : Answer := { status := .unknown, reason := some reason }

/-- The answer's text among the artifacts of a query. -/
def text (a : Answer) : String :=
  a.status.name ++ "\n" ++
    match a.reason with
    | some reason => reason ++ "\n"
    | none => ""

/-- The model in the lines behind `sat`, if they start with a bracket. One that cannot be read is
kept as text. -/
def modelOf (lines : List String) : Option Model :=
  let text := "\n".intercalate lines
  if (Text.dropBlank text.toList).head? == some '(' then
    match Model.parse text with
    | .ok model => some model
    | .error _ => some (.unparsed text)
  else none

/-- Read the output of a solver process. Its first line that is not blank is the answer; `exit` is
the code with which the process ended, unless it was killed. -/
def parse (output : String) (exit : Option Int) : Except SolverFault Answer :=
  let lines := ((Text.lines output).map Text.trim).dropWhile (·.isEmpty)
  match lines with
  | [] => .error (.noOutput exit)
  | "sat" :: rest => .ok (.sat (modelOf rest))
  | "unsat" :: _ => .ok .unsat
  | "unknown" :: _ => .ok (.unknown "solver returned unknown")
  | "timeout" :: _ => .ok (.unknown "timeout")
  | line :: _ =>
    if (Text.dropStart? "(error" line).isSome then .error (.reported line)
    else .error (.unexpected line)

end Answer

end Regression
