import Regression.Expr.Typing
import Regression.Expr.Json

/-!
# Explored partitions

A partition is one path through both versions: the condition under which it is taken, and what
each version does there. A version returns a constant or an expression over the inputs, or raises
an error.
-/

namespace Regression

inductive Outcome where
  | concrete (value : Constant)
  | symbolic (expr : Expr)
  | raised (error : String)
  deriving Repr, Inhabited

namespace Outcome

/-- The outcome that returns an expression. -/
def ofExpr : Expr → Outcome
  | .const v => .concrete v
  | e => .symbolic e

/-- The returned expression, if the version returns. -/
def expr? : Outcome → Option Expr
  | .concrete v => some (.const v)
  | .symbolic e => some e
  | .raised _ => none

def raised? : Outcome → Option String
  | .raised error => some error
  | _ => none

def hasUif : Outcome → Bool
  | .symbolic e => e.hasUif
  | _ => false

def uifNames : Outcome → NameSet
  | .symbolic e => e.uifNames
  | _ => .empty

def toJson : Outcome → Json
  | .concrete v => .object [("kind", .text "concrete"), ("value", v.toJson)]
  | .symbolic e => .object [("kind", .text "symbolic"), ("expr", e.toJson)]
  | .raised error => .object [("kind", .text "raised"), ("error", .text error)]

/-- An outcome, which is read as a whole like an expression. -/
def ofJson? (j : Json) : Option Outcome := do
  let fields ← j.object?
  if !j.isReadable then none
  match ← (← Json.field? fields "kind").text? with
  | "concrete" => return .concrete (← Constant.ofJson? (← Json.field? fields "value"))
  | "symbolic" => return .symbolic (← Expr.ofPart? (← Json.field? fields "expr"))
  | "raised" => return .raised (← (← Json.field? fields "error").text?)
  | _ => none

end Outcome

structure Partition where
  /-- Grows from partition to partition within an iteration. -/
  index : UInt32
  pc : Expr
  v1 : Outcome
  v2 : Outcome
  /-- Exploration stopped on this path at the depth bound. -/
  depthLimited : Bool := false
  deriving Repr, Inhabited

namespace Partition

/-- Whether an uninterpreted function occurs on this path. -/
def hasUif (p : Partition) : Bool := p.pc.hasUif || p.v1.hasUif || p.v2.hasUif

/-- The names of the uninterpreted functions on this path. -/
def uifNames (p : Partition) : NameSet :=
  (p.pc.uifNames.union p.v1.uifNames).union p.v2.uifNames

def toJson (p : Partition) : Json :=
  .object [("index", .int p.index.toNat), ("pc", p.pc.toJson), ("v1", p.v1.toJson),
    ("v2", p.v2.toJson), ("depth_limited", .bool p.depthLimited)]

def ofJson? (j : Json) : Option Partition := do
  let fields ← j.object?
  return {
    index := ← (← Json.field? fields "index").uint32?
    pc := ← Expr.ofJson? (← Json.field? fields "pc")
    v1 := ← Outcome.ofJson? (← Json.field? fields "v1")
    v2 := ← Outcome.ofJson? (← Json.field? fields "v2")
    depthLimited := ← Json.fieldOr fields "depth_limited" false Json.bool? }

end Partition

end Regression
