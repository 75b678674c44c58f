import Regression.Expr.Typing
import Regression.Script.Term

/-!
# Declarations

What a script has to declare before it can assert expressions: the real functions that occur, and
every variable and uninterpreted function with its signature. A name has one signature in a
script.

`Expr.uses` lists what an expression needs in the order of its nodes. `Declarations.collect` takes
the uses one by one and stops at the first that does not fit.
-/

namespace Regression

namespace Script

structure Signature where
  params : List ValueSort
  result : ValueSort
  deriving DecidableEq, Repr

/-- What a single node needs. The signature of a function is missing when an argument has no
sort. -/
inductive Use where
  | function (f : MathFunction)
  | name (name : String) (signature : Except Malformed Signature)

end Script

namespace Expr

open Script

mutual

/-- The uses of all nodes. The operator `**` is written as a call of `pow`. -/
def uses : Expr → List Use
  | .const _ => []
  | .var x s => [.name x (.ok ⟨[], s⟩)]
  | .binary op l r _ => (if op = .pow then [.function .pow] else []) ++ (uses l ++ uses r)
  | .uif f s args => .name f ((sorts? args).map fun params => ⟨params, s⟩) :: usesOf args
  | .math f args => .function f :: usesOf args

def usesOf : List Expr → List Use
  | [] => []
  | e :: es => uses e ++ usesOf es

end

end Expr

namespace Script

/-- Add a name with its signature, in ascending order of names; `none` when it is there with
another signature. -/
def declareName (name : String) (signature : Signature) :
    List (String × Signature) → Option (List (String × Signature))
  | [] => some [(name, signature)]
  | (first, known) :: rest =>
    if name < first then some ((name, signature) :: (first, known) :: rest)
    else if first < name then (declareName name signature rest).map ((first, known) :: ·)
    else if known = signature then some ((first, known) :: rest)
    else none

structure Declarations where
  functions : List MathFunction := []
  /-- In ascending order of names. -/
  names : List (String × Signature) := []
  deriving Repr

namespace Declarations

def empty : Declarations := {}

def isEmpty (d : Declarations) : Bool := d.functions.isEmpty && d.names.isEmpty

def use (d : Declarations) : Use → Except Malformed Declarations
  | .function f => .ok (if f ∈ d.functions then d else { d with functions := f :: d.functions })
  | .name name signature => do
    match declareName name (← signature) d.names with
    | some names => .ok { d with names }
    | none => .error (.conflictingSorts name)

/-- Take uses until one does not fit; what was declared before it stays. -/
def useAll (d : Declarations) : List Use → Declarations × Except Malformed Unit
  | [] => (d, .ok ())
  | u :: us =>
    match d.use u with
    | .ok d => d.useAll us
    | .error e => (d, .error e)

/-- Declare everything an expression needs. -/
def collect (d : Declarations) (e : Expr) : Declarations × Except Malformed Unit := d.useAll e.uses

/-- The functions to declare, in their fixed order. -/
def functionLines (d : Declarations) : List String :=
  (MathFunction.all.filter (· ∈ d.functions)).filterMap MathFunction.declaration?

def nameLine (name : String) (signature : Signature) : Except Malformed String := do
  let s ← Symbol.ofName name
  return (Term.apply "declare-fun"
    [.symbol s, .list (signature.params.map fun p => .word p.scriptName),
      .word signature.result.scriptName]).text

/-- The declaring commands: functions first, then names in ascending order. -/
def lines (d : Declarations) : Except Malformed (List String) := do
  let names ← d.names.mapM fun (name, signature) => nameLine name signature
  return d.functionLines ++ names

end Declarations

end Script

end Regression
