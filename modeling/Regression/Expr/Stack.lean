import Regression.Expr.Typing

/-!
# Building expressions on a stack

Expressions can be built step by step in postfix order: operands are pushed, and an operator takes
its operands from the stack and pushes the result. A step for which there are too few operands
changes nothing.
-/

namespace Regression

/-- One step of building. -/
inductive BuildStep where
  | push (e : Expr)
  /-- An operator with two operands, the left one pushed first. -/
  | binary (op : Operator) (location : Option Location)
  | uif (name : String) (sort : ValueSort) (count : Nat)
  | math (function : MathFunction) (count : Nat)
  | isEmptyString
  | conjunction (count : Nat)
  | duplicate
  | swap
  deriving Repr

/-- Expressions in the making, the newest first. -/
abbrev ExprStack := List Expr

namespace ExprStack

/-- Take some expressions from the stack, and push what is made of them, oldest first. -/
def combine (stack : ExprStack) (count : Nat) (make : List Expr → Expr) : Option ExprStack :=
  if count ≤ stack.length then some (make (stack.take count).reverse :: stack.drop count)
  else none

/-- Carry out a step, if there are operands enough. -/
def apply : BuildStep → ExprStack → Option ExprStack
  | .push e, stack => some (e :: stack)
  | .binary op location, r :: l :: rest => some (.binary op l r location :: rest)
  | .uif f s count, stack => stack.combine count (.uif f s)
  | .math f count, stack => stack.combine count (.math f)
  | .isEmptyString, s :: rest => some (.isEmptyString s :: rest)
  | .conjunction count, stack => stack.combine count .conjunction
  | .duplicate, e :: rest => some (e :: e :: rest)
  | .swap, a :: b :: rest => some (b :: a :: rest)
  | _, _ => none

end ExprStack

end Regression
