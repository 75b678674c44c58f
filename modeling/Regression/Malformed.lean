import Regression.Operator
import Regression.Number.Notation

/-!
# Malformed queries

The reasons for which an expression has no sort, or no form in a script.
-/

namespace Regression

inductive Malformed where
  | unknownOperator (text : String)
  | illTyped (op : Operator) (left right : ValueSort)
  | wrongArity (function : MathFunction) (given : Nat)
  | notNumeric (function : MathFunction)
  | bitwise (op : Operator) (left right : ValueSort)
  | badSymbol (name : String)
  | conflictingSorts (name : String)
  | notFinite (value : Binary64)
  | assertionSort (display : String) (sort : ValueSort)
  /-- A reason given by whoever was asked. -/
  | reported (message : String)
  deriving DecidableEq, Repr, Inhabited

namespace Malformed

def message : Malformed → String
  | .unknownOperator text => "Unknown operator '" ++ text ++ "'"
  | .illTyped op l r =>
    "operator '" ++ op.symbol ++ "' cannot combine " ++ l.scriptName ++ " and " ++ r.scriptName
  | .wrongArity f given =>
    f.name ++ " expects " ++ toString f.arity ++ " argument(s), got " ++ toString given
  | .notNumeric f => f.name ++ " applied to a non-numeric argument"
  | .bitwise op l r =>
    "bitwise '" ++ op.symbol ++ "' on " ++ l.scriptName ++ " and " ++ r.scriptName ++
      " is not supported"
  | .badSymbol name => "'" ++ name ++ "' cannot be used as a symbol"
  | .conflictingSorts name => "'" ++ name ++ "' is used with conflicting sorts"
  | .notFinite value => "real constant " ++ value.format .plain ++ " has no SMT-LIB form"
  | .assertionSort display sort => "assertion '" ++ display ++ "' has sort " ++ sort.scriptName
  | .reported message => message

end Malformed

/-- The operator a text names, blanks around it aside. -/
def Operator.parse (text : String) : Except Malformed Operator :=
  let symbol := Text.trim text
  match ofSymbol? symbol with
  | some op => .ok op
  | none => .error (.unknownOperator symbol)

end Regression
