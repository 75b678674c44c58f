import Mathlib.Data.Real.Basic
import Regression.Partition
import Regression.Script.Basic

/-!
# The meaning of expressions

An expression has a value once its inputs have one and its uninterpreted symbols are interpreted:
the functions that stand for abstracted computations, and the logarithm, which scripts only
declare. All other operations have a fixed meaning. What it is where the language of scripts leaves
it to the solver is given by an `Arithmetic`.

An expression that has no term, such as a remainder of reals, has no value either.
-/

namespace Regression

noncomputable section

/-! ## Values -/

/-- A value of one of the four sorts. -/
inductive Datum where
  | int (n : ℤ)
  | real (x : ℝ)
  | bool (b : Bool)
  | string (s : String)

namespace Datum

def sort : Datum → ValueSort
  | .int _ => .int
  | .real _ => .real
  | .bool _ => .bool
  | .string _ => .string

/-- A number of either sort as a real. -/
def number? : Datum → Option ℝ
  | .int n => some n
  | .real x => some x
  | .bool _ | .string _ => none

/-- A value, with an integer lifted to the reals. -/
def promoted : Datum → Datum
  | .int n => .real n
  | v => v

/-- Two values are equal, numbers after they were lifted to the reals. -/
def Agree (a b : Datum) : Prop := a.promoted = b.promoted

end Datum

/-! ## Interpretations -/

/-- The meaning of what scripts leave to the solver: quotients by zero, and the real functions but
the logarithm. -/
structure Arithmetic where
  overZero : ℝ → ℝ
  intOverZero : ℤ → ℤ
  moduloZero : ℤ → ℤ
  function : MathFunction → List ℝ → ℝ

namespace Arithmetic

open scoped Classical in
def quotient (A : Arithmetic) (x y : ℝ) : ℝ := if y = 0 then A.overZero x else x / y

/-- The quotient that leaves a remainder which is not negative. -/
def intQuotient (A : Arithmetic) (m n : ℤ) : ℤ := if n = 0 then A.intOverZero m else m / n

def remainder (A : Arithmetic) (m n : ℤ) : ℤ := if n = 0 then A.moduloZero m else m % n

def onInts (A : Arithmetic) (op : Operator) (m n : ℤ) : Datum :=
  match op with
  | .add => .int (m + n)
  | .sub => .int (m - n)
  | .mul => .int (m * n)
  | .div => .int (A.intQuotient m n)
  | .mod => .int (A.remainder m n)
  | _ => .real (A.function .pow [m, n])

/-- Remainders of reals have no form in scripts. -/
def onReals? (A : Arithmetic) (op : Operator) (x y : ℝ) : Option Datum :=
  match op with
  | .add => some (.real (x + y))
  | .sub => some (.real (x - y))
  | .mul => some (.real (x * y))
  | .div => some (.real (A.quotient x y))
  | .pow => some (.real (A.function .pow [x, y]))
  | _ => none

end Arithmetic

/-- What the uninterpreted symbols of scripts stand for. -/
structure Symbols where
  uif : String → ValueSort → List Datum → Datum
  log : ℝ → ℝ
  sort_uif (name : String) (sort : ValueSort) (args : List Datum) :
    (uif name sort args).sort = sort

theorem Symbols.exists_uif_eq_int (S : Symbols) (name : String) (args : List Datum) :
    ∃ n, S.uif name .int args = .int n := by
  have hsort := S.sort_uif name .int args
  cases hvalue : S.uif name .int args with
  | int n => exact ⟨n, rfl⟩
  | real | bool | string => rw [hvalue] at hsort; cases hsort

/-- The values of the inputs. -/
structure Inputs where
  value : String → ValueSort → Datum
  sort_value (name : String) (sort : ValueSort) : (value name sort).sort = sort

/-- A value of a sort, for each sort the same. -/
def Datum.pick (n : ℤ) (b : Bool) : ValueSort → Datum
  | .int => .int n
  | .real => .real n
  | .bool => .bool b
  | .string => .string ""

theorem Datum.sort_pick (n : ℤ) (b : Bool) (sort : ValueSort) : (pick n b sort).sort = sort := by
  cases sort <;> rfl

/-- Everything that is left to the solver is zero. -/
def Arithmetic.zero : Arithmetic where
  overZero _ := 0
  intOverZero _ := 0
  moduloZero _ := 0
  function _ _ := 0

/-- Uninterpreted symbols that do not look at their arguments. -/
def Symbols.constant (n : ℤ) (b : Bool) : Symbols where
  uif _ sort _ := .pick n b sort
  log _ := n
  sort_uif _ sort _ := Datum.sort_pick n b sort

/-- All inputs of a sort have the same value. -/
def Inputs.constant (n : ℤ) (b : Bool) : Inputs where
  value _ sort := .pick n b sort
  sort_value _ sort := Datum.sort_pick n b sort

/-! ## Operators -/

namespace Operator

def compares (op : Operator) (x y : ℝ) : Prop :=
  match op with
  | .eq => x = y
  | .ne => x ≠ y
  | .lt => x < y
  | .le => x ≤ y
  | .gt => y < x
  | _ => y ≤ x

open scoped Classical in
/-- Numbers of either sort are compared as reals. Other values of one sort are equal or not. -/
def comparison? (op : Operator) (a b : Datum) : Option Datum :=
  match a.number?, b.number? with
  | some x, some y => some (.bool (decide (op.compares x y)))
  | none, none =>
    if a.sort = b.sort ∧ op = .eq then some (.bool (decide (a = b)))
    else if a.sort = b.sort ∧ op = .ne then some (.bool (decide (a ≠ b)))
    else none
  | _, _ => none

def arithmetic? (A : Arithmetic) (op : Operator) (a b : Datum) : Option Datum :=
  match a, b with
  | .int m, .int n => some (A.onInts op m n)
  | a, b => do A.onReals? op (← a.number?) (← b.number?)

/-- On integers these operators have no form in scripts. -/
def boolean? (op : Operator) (a b : Datum) : Option Datum :=
  match a, b with
  | .bool p, .bool q =>
    some (.bool (match op with
      | .and => p && q
      | .or => p || q
      | _ => p ^^ q))
  | _, _ => none

def relatesTexts (op : Operator) (s t : List Char) : Prop :=
  match op with
  | .equals => s = t
  | .notEquals => s ≠ t
  | .startsWith => t <+: s
  | .notStartsWith => ¬ t <+: s
  | .endsWith => t <:+ s
  | .notEndsWith => ¬ t <:+ s
  | .contains => t <:+: s
  | _ => ¬ t <:+: s

open scoped Classical in
def stringPredicate? (op : Operator) (a b : Datum) : Option Datum :=
  match a, b with
  | .string s, .string t => some (.bool (decide (op.relatesTexts s.toList t.toList)))
  | _, _ => none

def result? (A : Arithmetic) (op : Operator) (a b : Datum) : Option Datum :=
  match op.kind with
  | .comparison => op.comparison? a b
  | .arithmetic => op.arithmetic? A a b
  | .boolean => op.boolean? a b
  | .stringPredicate => op.stringPredicate? a b

end Operator

/-! ## Expressions -/

/-- The number that a script writes for a finite one: the shortest decimal. -/
def Binary64.decimal (x : Binary64) : ℝ :=
  let (digits, point) := x.abs.shortest .up
  let size : ℝ := digits * (10 : ℝ) ^ (point - decimalLength digits)
  if x.isNegative then -size else size

def Constant.value? : Constant → Option Datum
  | .int v => some (.int v.toInt)
  | .real v => if v.isFinite then some (.real v.decimal) else none
  | .bool v => some (.bool v)
  | .string v => some (.string v)

/-- A real function of numbers. -/
def MathFunction.apply (A : Arithmetic) (S : Symbols) : MathFunction → List ℝ → ℝ
  | .log, [x] => S.log x
  | f, xs => A.function f xs

namespace Expr

section

variable (A : Arithmetic) (S : Symbols) (ρ : Inputs)

mutual

/-- The value of an expression, if it has one in scripts. -/
def eval : Expr → Option Datum
  | .const v => v.value?
  | .var x s => some (ρ.value x s)
  | .binary op l r _ => do op.result? A (← eval l) (← eval r)
  | .uif f s args => do return S.uif f s (← evals args)
  | .math f args => do return .real (f.apply A S (← (← evals args).mapM Datum.number?))

def evals : List Expr → Option (List Datum)
  | [] => some []
  | e :: es => do return (← eval e) :: (← evals es)

end

/-- A condition is true. -/
def Holds (e : Expr) : Prop := e.eval A S ρ = some (.bool true)

end

/-- Conditions that are all true for some interpretation and some inputs. -/
def Satisfiable (A : Arithmetic) (conditions : List Expr) : Prop :=
  ∃ S ρ, ∀ e ∈ conditions, e.Holds A S ρ

end Expr

end

end Regression
