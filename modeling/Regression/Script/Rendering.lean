import Regression.Script.Declarations

/-!
# Expressions as terms

Numbers of both sorts are combined as reals: an integer operand next to a real one is lifted with
`to_real`, and so are the arguments of real functions. Division of integers is `div`, and `%` is
`mod` on integers only. The operators `&`, `|` and `^` have a form on conditions only. A negative
number is a negated positive one.
-/

namespace Regression

open Script

namespace Constant

def term : Constant → Except Malformed Term
  | .int v =>
    let i := v.toInt
    .ok (if i < 0 then .apply "-" [.numeral i.natAbs] else .numeral i.natAbs)
  | .real v =>
    if !v.isFinite then .error (.notFinite v)
    else if v.isNegative && !v.isZero then .ok (.apply "-" [.decimal v.abs])
    else .ok (.decimal v.abs)
  | .bool v => .ok (.word (toString v))
  | .string v => .ok (.string v)

end Constant

namespace Script.Term

/-- A term of one sort where a number of another sort is wanted. -/
def lift (t : Term) (given wanted : ValueSort) : Term :=
  if given = .int ∧ wanted = .real then .apply "to_real" [t] else t

def negation (t : Term) : Term := .apply "not" [t]

def comparison (op : Operator) (l r : Term) : Term :=
  match op with
  | .eq => .apply "=" [l, r]
  | .ne => negation (.apply "=" [l, r])
  | .lt => .apply "<" [l, r]
  | .le => .apply "<=" [l, r]
  | .gt => .apply ">" [l, r]
  | _ => .apply ">=" [l, r]

def stringPredicate (op : Operator) (l r : Term) : Term :=
  match op with
  | .equals => .apply "=" [l, r]
  | .notEquals => negation (.apply "=" [l, r])
  | .startsWith => .apply "str.prefixof" [r, l]
  | .notStartsWith => negation (.apply "str.prefixof" [r, l])
  | .endsWith => .apply "str.suffixof" [r, l]
  | .notEndsWith => negation (.apply "str.suffixof" [r, l])
  | .contains => .apply "str.contains" [l, r]
  | _ => negation (.apply "str.contains" [l, r])

/-- The word for an arithmetic operator on numbers of one sort, if it has one there. -/
def arithmeticWord? (op : Operator) (sort : ValueSort) : Option String :=
  match op, sort with
  | .add, _ => some "+"
  | .sub, _ => some "-"
  | .mul, _ => some "*"
  | .div, .int => some "div"
  | .div, _ => some "/"
  | .mod, .int => some "mod"
  | _, _ => none

def booleanWord (op : Operator) : String :=
  match op with
  | .and => "and"
  | .or => "or"
  | _ => "xor"

/-- A binary node over rendered operands. -/
def binary (op : Operator) (l : Term) (ls : ValueSort) (r : Term) (rs : ValueSort) :
    Except Malformed (Term × ValueSort) :=
  match op.kind with
  | .comparison =>
    if ls.isNumeric && rs.isNumeric then
      let wide := ls.widen rs
      .ok (comparison op (l.lift ls wide) (r.lift rs wide), .bool)
    else if ls = rs && (op = .eq || op = .ne) then .ok (comparison op l r, .bool)
    else .error (.illTyped op ls rs)
  | .arithmetic =>
    if !(ls.isNumeric && rs.isNumeric) then .error (.illTyped op ls rs)
    else if op = .pow then .ok (.apply "pow" [l.lift ls .real, r.lift rs .real], .real)
    else
      let wide := ls.widen rs
      match arithmeticWord? op wide with
      | some head => .ok (.apply head [l.lift ls wide, r.lift rs wide], wide)
      | none => .error (.illTyped op ls rs)
  | .boolean =>
    if ls = .bool && rs = .bool then .ok (.apply (booleanWord op) [l, r], .bool)
    else .error (.bitwise op ls rs)
  | .stringPredicate =>
    if ls = .string && rs = .string then .ok (stringPredicate op l r, .bool)
    else .error (.illTyped op ls rs)

end Script.Term

namespace Expr

mutual

/-- The term of an expression and its sort. -/
def term : Expr → Except Malformed (Term × ValueSort)
  | .const v => do return (← v.term, v.sort)
  | .var x s => do return (.symbol (← Symbol.ofName x), s)
  | .uif f s args => do
    let args ← terms args
    let name ← Symbol.ofName f
    return (if args.isEmpty then .symbol name else .list (.symbol name :: args.map (·.1)), s)
  | .math f args => do
    let _ ← sort? (.math f args)
    let args ← terms args
    return (.apply f.name (args.map fun (t, s) => t.lift s .real), .real)
  | .binary op l r _ => do
    let (l, ls) ← term l
    let (r, rs) ← term r
    Term.binary op l ls r rs

def terms : List Expr → Except Malformed (List (Term × ValueSort))
  | [] => .ok []
  | e :: es => do
    let t ← term e
    let ts ← terms es
    return t :: ts

end

/-- The text of an expression's term. -/
def termText (e : Expr) : Except Malformed String := do return (← e.term).1.text

end Expr

end Regression
