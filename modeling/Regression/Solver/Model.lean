import Regression.Failure
import Regression.Sexpr.Grammar

/-!
# Models

A solver that answers `sat` may add a model: a block of definitions, of which those of constants
give values to variables. The block may start with the word `model`. The text is kept as it came,
and values are kept as texts.
-/

namespace Regression

structure Model where
  /-- Names with values, in ascending order of names. -/
  assignments : List (String × String) := []
  raw : String
  deriving DecidableEq, Repr

namespace Model

/-- Give a value to a name; an earlier value is replaced. -/
def assign (name value : String) : List (String × String) → List (String × String)
  | [] => [(name, value)]
  | (first, old) :: rest =>
    if name < first then (name, value) :: (first, old) :: rest
    else if first < name then (first, old) :: assign name value rest
    else (first, value) :: rest

/-- Text that is kept without being understood. -/
def unparsed (text : String) : Model := { raw := Text.trim text }

/-- The text between the brackets of a block. -/
def body? (cs : List Char) : Option (List Char) :=
  match cs with
  | '(' :: rest =>
    match rest.reverse with
    | ')' :: inner => some inner.reverse
    | _ => none
  | _ => none

/-- The block without white space and the word `model` in front. -/
def dropHeader (cs : List Char) : List Char :=
  let cs := Text.dropBlank cs
  (Text.dropPattern? "model".toList cs).getD cs

/-- The definitions of a block. -/
def definitions? (cs : List Char) : Option (List (String × String)) := do
  let commands ← Sexpr.ofTokens? (Sexpr.tokens cs)
  let definitions ← commands.mapM Sexpr.command?
  return definitions.filterMap id

/-- Read a model. -/
def parse (text : String) : Except SolverFault Model :=
  let raw := Text.trim text
  match body? raw.toList with
  | none => .error .notABlock
  | some body =>
    match definitions? (dropHeader body) with
    | none => .error .unreadableModel
    | some definitions =>
      .ok { assignments := definitions.foldl (fun a (name, value) => assign name value a) []
            raw }

def get? (m : Model) (name : String) : Option String :=
  (m.assignments.find? (·.1 = name)).map (·.2)

/-- All assignments on one line. -/
def summary (m : Model) : String :=
  ", ".intercalate (m.assignments.map fun (name, value) => name ++ " = " ++ value)

end Model

end Regression
