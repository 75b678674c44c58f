import Regression.Text.Blank

/-!
# Sorts, operators and functions of expressions

The vocabulary of expressions: the four sorts of values, the binary operators with the symbols
under which they are written, and the real functions with a fixed meaning.
-/

namespace Regression

/-! ## Sorts -/

inductive ValueSort where
  | int
  | real
  | bool
  | string
  deriving DecidableEq, Hashable, Repr, Inhabited

namespace ValueSort

def all : List ValueSort := [.int, .real, .bool, .string]

/-- The sort's name in scripts. -/
def scriptName : ValueSort → String
  | .int => "Int"
  | .real => "Real"
  | .bool => "Bool"
  | .string => "String"

/-- The sort's name in files. -/
def name : ValueSort → String
  | .int => "int"
  | .real => "real"
  | .bool => "bool"
  | .string => "string"

def ofName? (name : String) : Option ValueSort := all.find? (·.name = name)

def isNumeric : ValueSort → Bool
  | .int | .real => true
  | .bool | .string => false

/-- The sort in which two numbers are combined. -/
def widen (s t : ValueSort) : ValueSort := if s = .real ∨ t = .real then .real else .int

end ValueSort

/-! ## Operators -/

inductive OperatorKind where
  | comparison
  | arithmetic
  | boolean
  | stringPredicate
  deriving DecidableEq, Repr, Inhabited

inductive Operator where
  | eq
  | ne
  | lt
  | le
  | gt
  | ge
  | add
  | sub
  | mul
  | div
  | pow
  | mod
  | and
  | or
  | xor
  | equals
  | notEquals
  | startsWith
  | notStartsWith
  | endsWith
  | notEndsWith
  | contains
  | notContains
  deriving DecidableEq, Hashable, Repr, Inhabited

namespace Operator

def all : List Operator :=
  [.eq, .ne, .lt, .le, .gt, .ge, .add, .sub, .mul, .div, .pow, .mod, .and, .or, .xor, .equals,
    .notEquals, .startsWith, .notStartsWith, .endsWith, .notEndsWith, .contains, .notContains]

/-- How the operator is written between its operands. -/
def symbol : Operator → String
  | .eq => "=="
  | .ne => "!="
  | .lt => "<"
  | .le => "<="
  | .gt => ">"
  | .ge => ">="
  | .add => "+"
  | .sub => "-"
  | .mul => "*"
  | .div => "/"
  | .pow => "**"
  | .mod => "%"
  | .and => "&"
  | .or => "|"
  | .xor => "^"
  | .equals => "equals"
  | .notEquals => "notequals"
  | .startsWith => "startswith"
  | .notStartsWith => "notstartswith"
  | .endsWith => "endswith"
  | .notEndsWith => "notendswith"
  | .contains => "contains"
  | .notContains => "notcontains"

/-- The operator with exactly this symbol. -/
def ofSymbol? (symbol : String) : Option Operator := all.find? (·.symbol = symbol)

def kind : Operator → OperatorKind
  | .eq | .ne | .lt | .le | .gt | .ge => .comparison
  | .add | .sub | .mul | .div | .pow | .mod => .arithmetic
  | .and | .or | .xor => .boolean
  | .equals | .notEquals | .startsWith | .notStartsWith | .endsWith | .notEndsWith | .contains
  | .notContains => .stringPredicate

end Operator

/-! ## Real functions -/

inductive MathFunction where
  | sin
  | cos
  | tan
  | asin
  | acos
  | atan
  | atan2
  | pow
  | sqrt
  | exp
  | log
  deriving DecidableEq, Hashable, Repr, Inhabited

namespace MathFunction

/-- All functions, in the order in which scripts declare them. -/
def all : List MathFunction :=
  [.sin, .cos, .tan, .asin, .acos, .atan, .atan2, .pow, .sqrt, .exp, .log]

def name : MathFunction → String
  | .sin => "sin"
  | .cos => "cos"
  | .tan => "tan"
  | .asin => "asin"
  | .acos => "acos"
  | .atan => "atan"
  | .atan2 => "atan2"
  | .pow => "pow"
  | .sqrt => "sqrt"
  | .exp => "exp"
  | .log => "log"

def ofName? (name : String) : Option MathFunction := all.find? (·.name = name)

def arity : MathFunction → Nat
  | .atan2 | .pow => 2
  | _ => 1

/-- The command that introduces the function in a script. The trigonometric functions need none:
solvers know them, and a declaration would hide what they mean. -/
def declaration? : MathFunction → Option String
  | .pow => some "(define-fun pow ((a Real) (b Real)) Real (^ a b))"
  | .sqrt => some "(define-fun sqrt ((x Real)) Real (^ x 0.5))"
  | .exp => some "(define-fun exp ((x Real)) Real (^ 2.718281828459045 x))"
  | .log => some "(declare-fun log (Real) Real)"
  | _ => none

end MathFunction

end Regression
