import Regression.Script.Rendering

/-!
# Scripts

A script is self-contained: options, logic, declarations, assertions, then the question and the
request for a model. `Script.ofAssertions` fails when an assertion has no term, or is not a
condition.
-/

namespace Regression

structure Script where
  timeoutMs : UInt64
  declarations : List String
  assertions : List Script.Term

namespace Script

/-- The term of an assertion. -/
def assertion (e : Expr) : Except Malformed Term := do
  let (t, s) ← e.term
  if s = .bool then return t else .error (.assertionSort e.display s)

/-- Declare what the assertions need and render them, one after the other. -/
def assertions? (d : Declarations) : List Expr → Except Malformed (Declarations × List Term)
  | [] => .ok (d, [])
  | e :: es => do
    let (d, outcome) := d.collect e
    outcome
    let t ← assertion e
    let (d, ts) ← assertions? d es
    return (d, t :: ts)

/-- The script that asserts some conditions. -/
def ofAssertions (conditions : List Expr) (timeoutMs : UInt64) : Except Malformed Script := do
  let (d, assertions) ← assertions? .empty conditions
  return { timeoutMs, declarations := ← d.lines, assertions }

/-- The commands of a script, one a line. -/
def commands (s : Script) : List String :=
  ["(set-option :produce-models true)",
    "(set-option :timeout " ++ toString s.timeoutMs.toNat ++ ")", "(set-logic ALL)"] ++
    s.declarations ++ s.assertions.map (fun t => (Term.apply "assert" [t]).text) ++
    ["(check-sat)", "(get-model)", "(exit)"]

def text (s : Script) : String := String.join (s.commands.map (· ++ "\n"))

end Script

end Regression
