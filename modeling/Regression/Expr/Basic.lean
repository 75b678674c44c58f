import Regression.Location
import Regression.Malformed
import Regression.NameSet

/-!
# Expressions

Path conditions and symbolic results are expressions: constants, variables, binary operators,
applications of uninterpreted functions, which stand for abstracted computations, and
applications of real functions.

A binary node may carry the location it comes from. Locations say nothing about the value:
`Expr.same` compares expressions without them.
-/

namespace Regression

inductive Constant where
  | int (value : Int64)
  | real (value : Binary64)
  | bool (value : Bool)
  | string (value : String)
  deriving DecidableEq, Hashable, Repr, Inhabited

namespace Constant

def sort : Constant → ValueSort
  | .int _ => .int
  | .real _ => .real
  | .bool _ => .bool
  | .string _ => .string

def display : Constant → String
  | .int v => toString v.toInt
  | .real v => v.format .general
  | .bool v => toString v
  | .string v => Text.quoted v

end Constant

inductive Expr where
  | const (value : Constant)
  | var (name : String) (sort : ValueSort)
  | binary (op : Operator) (left right : Expr) (location : Option Location)
  /-- An application of an uninterpreted function. -/
  | uif (name : String) (sort : ValueSort) (args : List Expr)
  | math (function : MathFunction) (args : List Expr)
  deriving Repr, Inhabited

namespace Expr

/-! ## Building expressions -/

def int (v : Int64) : Expr := .const (.int v)

def real (v : Binary64) : Expr := .const (.real v)

def bool (v : Bool) : Expr := .const (.bool v)

def string (v : String) : Expr := .const (.string v)

/-- A binary node without a location. -/
def mk (op : Operator) (left right : Expr) : Expr := .binary op left right none

/-- The condition that a string is empty. -/
def isEmptyString (s : Expr) : Expr := mk .equals s (string "")

/-- The conjunction of conditions, nested to the left; the empty one is `true`. -/
def conjunction : List Expr → Expr
  | [] => bool true
  | first :: rest => rest.foldl (mk .and) first

/-! ## Equality without locations -/

mutual

/-- Whether two expressions differ in locations at most. -/
def same : Expr → Expr → Bool
  | .const v, .const w => v == w
  | .var x s, .var y t => x == y && s == t
  | .binary op l r _, .binary op' l' r' _ => op == op' && same l l' && same r r'
  | .uif f s args, .uif g t args' => f == g && s == t && sameArgs args args'
  | .math f args, .math g args' => f == g && sameArgs args args'
  | _, _ => false

def sameArgs : List Expr → List Expr → Bool
  | [], [] => true
  | e :: es, e' :: es' => same e e' && sameArgs es es'
  | _, _ => false

end

instance : BEq Expr := ⟨same⟩

/-! ## Nodes -/

mutual

/-- All nodes, each in front of its operands or arguments. -/
def nodes : Expr → List Expr
  | .const v => [.const v]
  | .var x s => [.var x s]
  | .binary op l r location => .binary op l r location :: (nodes l ++ nodes r)
  | .uif f s args => .uif f s args :: nodesOf args
  | .math f args => .math f args :: nodesOf args

def nodesOf : List Expr → List Expr
  | [] => []
  | e :: es => nodes e ++ nodesOf es

end

def isUif : Expr → Bool
  | .uif .. => true
  | _ => false

/-- Whether an uninterpreted function occurs. -/
def hasUif (e : Expr) : Bool := e.nodes.any isUif

def uifName? : Expr → Option String
  | .uif f _ _ => some f
  | _ => none

/-- The names of the uninterpreted functions that occur. -/
def uifNames (e : Expr) : NameSet := .ofList (e.nodes.filterMap uifName?)

/-! ## Display -/

mutual

/-- The expression in infix form, every binary node in brackets. -/
def display : Expr → String
  | .const v => v.display
  | .var x _ => x
  | .binary op l r _ => "(" ++ display l ++ " " ++ op.symbol ++ " " ++ display r ++ ")"
  | .uif f _ args => f ++ "(" ++ ", ".intercalate (displays args) ++ ")"
  | .math f args => f.name ++ "(" ++ ", ".intercalate (displays args) ++ ")"

def displays : List Expr → List String
  | [] => []
  | e :: es => display e :: displays es

end

end Expr

end Regression
