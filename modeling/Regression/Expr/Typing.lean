import Regression.Expr.Basic

/-!
# Sorts of expressions

`Expr.sort?` infers the sort of an expression, or finds the leftmost reason why it has none.
Applications of uninterpreted functions have the sort they declare, whatever their arguments are.

`Expr.conjuncts` splits a condition at the conjunctions of two conditions; on integers `&` is a
bitwise operator and is not split.
-/

namespace Regression

/-- The sort of a binary node over operands of given sorts. -/
def Operator.resultSort (op : Operator) (l r : ValueSort) : Except Malformed ValueSort :=
  match op.kind with
  | .comparison =>
    if (l.isNumeric && r.isNumeric) || (l = r && (op = .eq || op = .ne)) then .ok .bool
    else .error (.illTyped op l r)
  | .arithmetic =>
    if l.isNumeric && r.isNumeric then .ok (if op = .pow then .real else l.widen r)
    else .error (.illTyped op l r)
  | .boolean =>
    match l, r with
    | .bool, .bool => .ok .bool
    | .int, .int => .ok .int
    | _, _ => .error (.illTyped op l r)
  | .stringPredicate =>
    if l = .string && r = .string then .ok .bool else .error (.illTyped op l r)

namespace Expr

mutual

def sort? : Expr → Except Malformed ValueSort
  | .const v => .ok v.sort
  | .var _ s => .ok s
  | .uif _ s _ => .ok s
  | .math f args =>
    if args.length ≠ f.arity then .error (.wrongArity f args.length)
    else do
      numericArgs f args
      return .real
  | .binary op l r _ => do
    let ls ← sort? l
    let rs ← sort? r
    op.resultSort ls rs

/-- Check from the left that all arguments of a real function are numbers. -/
def numericArgs (f : MathFunction) : List Expr → Except Malformed Unit
  | [] => .ok ()
  | e :: es => do
    let s ← sort? e
    if s.isNumeric then numericArgs f es else .error (.notNumeric f)

end

/-- The sorts of a list of expressions. -/
def sorts? (args : List Expr) : Except Malformed (List ValueSort) := args.mapM sort?

def isCondition (e : Expr) : Bool :=
  match e.sort? with
  | .ok .bool => true
  | _ => false

/-- The conditions that an expression joins by `&`; the literal `true` joins none. -/
def conjuncts : Expr → List Expr
  | .binary .and l r location =>
    if l.isCondition && r.isCondition then conjuncts l ++ conjuncts r
    else [.binary .and l r location]
  | .const (.bool true) => []
  | e => [e]

/-- The number of conditions that are joined, as a 32-bit word. -/
def constraintCount (e : Expr) : UInt32 := .ofNat e.conjuncts.length

end Expr

end Regression
